/-
# The parser of the external server

`tcp_rpcs_compact_parse_execute` of `server/src/net/net-tcp-rpc-ext-server.c`: one loop
whose turns detect the transport, take a Session Header, a PROXY protocol header, a
ClientHello and an obfuscated2 header from the front of `c->in`, and after that packets.

Each part of a turn is a stage; a stage passes the connection on or leaves with what
`parse_execute` returns.  The parsers of the PROXY protocol and of a ClientHello, the
checks of a secret's limits, and the engine that packets go to are parameters.  The
build is one without `__ALLOW_UNOBFS__` and `TELEPROTO3_BENCH`, and `RPCF_COMPACT_OFF`
is never set in it.
-/

import Teleproto3.Server.Decrypt
import Teleproto3.Server.Detect
import Teleproto3.Server.Obfs2
import Teleproto3.Server.Outbound

namespace Teleproto3
namespace Server

open Lib

/-! ### The surroundings -/

/-- `SLOT_FREE`, `SLOT_ACTIVE`, `SLOT_DRAINING`. -/
inductive SlotState
  | free
  | active
  | draining
  deriving DecidableEq, Repr

/-- A slot of `ext_secret` with its state. -/
structure ExtSecret where
  state : SlotState
  key : Bytes
  deriving DecidableEq, Repr

/-- What `proxy_protocol_parse` returns: 0, -1, or the length of the header with the address
of the client where it names one. -/
inductive ProxyProtocol
  | needMore
  | malformed
  | header (consumed : ℕ) (addr : Option RemoteAddr)
  deriving DecidableEq, Repr

/-- What the parser takes from its surroundings. -/
structure ExtServerEnv (W : Type*) extends OutboundEnv W where
  prim : Primitives
  /-- `ws_compute_accept_key` -/
  acceptKey : Bytes → Option Bytes
  /-- the slots up to `ext_secret_cnt` -/
  secrets : W → List ExtSecret
  extRandPadOnly : Bool
  /-- `default_domain_info`; `allow_only_tls` is set where there is one -/
  defaultDomainInfo : Option DomainInfo
  directMode : Bool
  proxyProtocolParse : Bytes → ProxyProtocol
  /-- `ip_acl_check_v4` and `ip_acl_check_v6` -/
  ipAclCheck : RemoteAddr → Bool
  /-- `get_sni_domain_info` -/
  getSniDomainInfo : Bytes → Option DomainInfo
  haveClientRandom : W → Bytes → Bool
  /-- `add_client_random` and `delete_old_client_randoms` -/
  addClientRandom : W → Bytes → W
  sha256Hmac : Bytes → Bytes → Bytes
  isAllowedTimestamp : W → ℤ → Bool
  /-- `tls_parse_client_hello_ciphers` -/
  parseClientHelloCiphers : Bytes → Option UInt8
  /-- the two messages of the ServerHello -/
  serverHello : W → DomainInfo → Bytes → Bytes → UInt8 → Bytes → (Bytes × Bytes) × W
  /-- whether the slot is neither draining, expired, at its limit, over its quota nor over
  its number of addresses -/
  admits : W → ℕ → RemoteAddr → Bool × W
  /-- the counters after a connection under a slot -/
  countConnection : W → ℕ → RemoteAddr → W
  /-- what `compact_to_slot` holds where no slot is in use: memory never written -/
  staleSlot : ℕ
  /-- `schedule_job_callback` of `do_rpcs_execute` -/
  scheduleExecute : W → Bytes → RpcFlags → W

/-- `MAX_POST_SIZE`, which is `max_packet_len`. -/
def MAX_POST_SIZE : ℕ := 262144 * 4 - 4096

/-- `MAX_CONNECTION_BUFFER_SPACE`. -/
def MAX_CONNECTION_BUFFER_SPACE : ℕ := 2 ^ 25

/-- `RPC_PING`. -/
def RPC_PING : ℕ := 0x5730a2df

/-- `RPC_PONG`. -/
def RPC_PONG : ℕ := 0x8430eaa7

variable {W : Type*} (env : ExtServerEnv W)

/-! ### Before the cipher -/

/-- WebSocket frames lose their framing. -/
def wsPreCrypto : Stage W := fun c =>
  match wsUnwrapLoop ⟨⟨c.inp, c.wsFrameRemaining, c.wsMask, c.wsMaskOffset⟩, []⟩ with
  | .error a => .error (.abort a)
  | .ok (u, alive) =>
    let c := { c with
      inp := u.frames.input
      wsFrameRemaining := u.frames.remaining
      wsMask := u.frames.mask
      wsMaskOffset := u.frames.maskOffset }
    if alive then .ok { c with inp := u.unmasked ++ c.inp }
    else .error (.ret (failConnection c (-1)) SKIP_ALL_BYTES)

/-- The dispatch hook. -/
def dispatchHook : Stage W := fun c =>
  match type3DispatchOnCryptoInit env.toDispatchEnv c with
  | (c, .dropSilent) => .error (.ret c SKIP_ALL_BYTES)
  | (c, _) => .ok c

/-- What happens to a WebSocket or an HTTP stream as long as there is no cipher. -/
def preCrypto : Stage W := fun c =>
  if c.wsState = .active ∧ c.crypto.isNone then
    ((wsPreCrypto c).bind needInput).bind (dispatchHook env)
  else if c.transportMode ≠ .ws ∧ c.crypto.isNone then (needInput c).bind (dispatchHook env)
  else .ok c

/-! ### Before a packet -/

/-- `min_len`. -/
def minLen (c : Conn W) : ℕ := if c.rpc.flags.medium then 4 else 1

/-- `job_timer_remove` once the handshake is over, and the tests of the flags. -/
def parseFlags : Stage W := fun c =>
  let c := { c with timer := if c.rpc.inPacketNum ≠ -3 then none else c.timer }
  if c.cError ∨ c.cStopParse then .error (.ret c NEED_MORE_BYTES) else .ok c

/-- The tests of the number of bytes at hand. -/
def parseLength : Stage W := fun c =>
  if c.inp.length = 0 then .error (.ret c NEED_MORE_BYTES)
  else if c.inp.length < minLen c + 8 then .error (.ret c (minLen c + 8 - c.inp.length))
  else if c.inp.length < 4 then .error (.abort .packetLen)
  else .ok c

/-! ### The handshake -/

/-- The PROXY protocol. -/
def proxyHeader : Stage W := fun c =>
  if c.cProxyProtocol then
    match env.proxyProtocolParse c.inp with
    | .needMore =>
      .error (.ret c (if c.inp.length < 16 then 16 - c.inp.length else NEED_MORE_BYTES))
    | .malformed => .error (.ret (failConnection c (-1)) 0)
    | .header consumed addr =>
      let c := (c.record (.proxyHeader (c.inp.take consumed))).skipData consumed
      let c := { c with cProxyProtocol := false, remote := addr.getD c.remote }
      if addr.isSome ∧ env.ipAclCheck c.remote = false then
        .error (.ret (failConnection c (-1)) 0)
      else parseLength c
  else .ok c

/-- The first packet of a client of fake TLS, behind its dummy ChangeCipherSpec.  At least
64 bytes are left where this stage is passed. -/
def firstTlsPacket : Stage W := fun c =>
  if c.inp.length < 11 then .error (.ret c (11 - c.inp.length))
  else if c.inp.take 9 ≠ [0x14, 0x03, 0x03, 0x00, 0x01, 0x01, 0x17, 0x03, 0x03] then
    .error (.ret (failConnection c (-1)) 0)
  else
    let left := beValue ((c.inp.drop 9).take 2)
    if c.inp.length < 11 + left then .error (.ret c (11 + left - c.inp.length))
    else
      let c := { c.skipData 11 with leftTlsPacketLength := left }
      if left < 64 then .error (.ret (failConnection c (-1)) 0)
      else .ok { c with leftTlsPacketLength := left - 64 }

/-- `RETURN_TLS_ERROR`. -/
def returnTlsError (c : Conn W) (info : DomainInfo) : ParseExit W :=
  .ret (proxyConnection env.toOutboundEnv c info) 0

/-- The first slot under whose key a ClientHello has the random it carries, with the key and
the expected random. -/
def helloSecret (random blanked : Bytes) : List ExtSecret → ℕ → Option (ℕ × Bytes × Bytes)
  | [], _ => none
  | secret :: secrets, slot =>
    let expected := env.sha256Hmac secret.key blanked
    if secret.state ≠ .free ∧ expected.take 28 = random.take 28 then
      some (slot, secret.key, expected)
    else helloSecret random blanked secrets (slot + 1)

/-- The checks of a ClientHello, any of which sends the client to the domain it asked for.
The result is the key of its secret and the cipher suite. -/
def checkHello (c : Conn W) (hello : Bytes) (helloLen : ℕ) : Option (Bytes × UInt8) × W :=
  let random := (hello.drop 11).take 32
  let blanked := hello.take 11 ++ List.replicate 32 0 ++ hello.drop 43
  if c.ourPort = 80 ∨ helloLen < c.inp.length ∨ c.inp.length ≠ hello.length ∨
      env.haveClientRandom c.world random then
    (none, c.world)
  else
    let world := env.addClientRandom c.world random
    match helloSecret env random blanked (env.secrets world) 0 with
    | none => (none, world)
    | some (slot, key, expected) =>
      let timestamp := readLe32 (expected.drop 28) ^^^ readLe32 (random.drop 28)
      if env.isAllowedTimestamp world (wrap32 timestamp) = false then (none, world)
      else
        let (admitted, world) := env.admits world slot c.remote
        if admitted = false then (none, world)
        else ((env.parseClientHelloCiphers blanked).map fun cipherSuiteId => (key, cipherSuiteId),
          world)

/-- A ClientHello.  The first domain is the default one. -/
def clientHello (dflt : DomainInfo) (c : Conn W) : ParseExit W :=
  let helloLen := 5 + beValue ((c.inp.drop 3).take 2)
  if c.inp.length < helloLen then .ret c (helloLen - c.inp.length)
  else
    let hello := c.inp.take 4096
    let c := c.record (.clientHello hello)
    match env.getSniDomainInfo hello with
    | none => returnTlsError env c dflt
    | some info =>
      match checkHello env c hello helloLen with
      | (none, world) => returnTlsError env { c with world := world } info
      | (some (key, cipherSuiteId), world) =>
        let ((m1, m2), world) :=
          env.serverHello world info ((hello.drop 11).take 32) hello cipherSuiteId key
        .ret
          { c.skipData c.inp.length with
            cIsTls := true
            leftTlsPacketLength := -1
            outQueue := c.outQueue ++ [m1, m2]
            world := world }
          11

/-- The first bytes of a ClientHello, with a record length of at least 512. -/
def StartsHello (inp : Bytes) : Prop :=
  inp.take 3 = [0x16, 0x03, 0x01] ∧ 2 ≤ (inp.getD 3 0).toNat ∧ (inp.getD 3 0).toNat < 128

instance (inp : Bytes) : Decidable (StartsHello inp) := by
  unfold StartsHello
  infer_instance

/-- Fake TLS.  Where a default domain is set, a client that does not speak it and is no HTTP
stream is sent there. -/
def fakeTls : Stage W := fun c =>
  if c.cIsTls then firstTlsPacket c
  else
    match env.defaultDomainInfo with
    | none => .ok c
    | some dflt =>
      if StartsHello c.inp ∧ env.secrets c.world ≠ [] then .error (clientHello env dflt c)
      else if c.transportMode = .ws then .error (returnTlsError env c dflt)
      else .ok c

/-- The slots in use, with their numbers. -/
def slotsInUse (secrets : List ExtSecret) : List (ℕ × Bytes) :=
  (secrets.zipIdx.filter fun p => p.1.state ≠ .free).map fun p => (p.2, p.1.key)

/-- The flags of a transport tag. -/
def tagFlags (flags : RpcFlags) (tag : ℕ) : RpcFlags :=
  if tag = OBFS2_TAG_MEDIUM then { flags with medium := true, extmode2 := true }
  else if tag = OBFS2_TAG_PAD then { flags with medium := true, extmode2 := true, pad := true }
  else { flags with compact := true, extmode2 := true }

/-- The cipher is set up, its counter moved behind the header, and what is left of `in`
goes back to `in_u`.  What was written without a cipher goes to `out_p`. -/
def startCrypto (c : Conn W) (pr : Obfs2ParseResult) : Conn W :=
  { c.record (.cryptoInit pr.keys) with
    crypto := some
      { read := ⟨env.prim.aes256Ctr pr.keys.readKey pr.keys.readIv, 64⟩
        write := ⟨env.prim.aes256Ctr pr.keys.writeKey pr.keys.writeIv, 0⟩ }
    outP := c.outP ++ c.out
    out := []
    inU := c.inU ++ c.inp.drop 64
    inp := []
    rpc := { c.rpc with inPacketNum := 0, flags := tagFlags c.rpc.flags pr.tag } }

/-- `D` takes what the header said. -/
def setTarget (c : Conn W) (pr : Obfs2ParseResult) (slot : ℕ) : Conn W :=
  { c with
    rpc := { c.rpc with extraInt4 := pr.dc, extraInt2 := slot + 1, extraInt3 := pr.tag } }

/-- The limits of the secret, for a client they have not been held against yet. -/
def admitSlot (slot : ℕ) : Stage W := fun c =>
  if c.cIsTls ∨ EXT_SECRET_MAX_SLOTS ≤ slot then .ok c
  else
    match env.admits c.world slot c.remote with
    | (true, world) => .ok { c with world := world }
    | (false, world) =>
      let c := { c with world := world, rpc := { c.rpc with extraInt2 := 0 } }
      .error (.ret (failConnection c (-1)) 0)

/-- The connection is counted; one of fake TLS gets its type. -/
def countSession (c : Conn W) (slot : ℕ) : Conn W :=
  { c with
    world :=
      if slot < EXT_SECRET_MAX_SLOTS then env.countConnection c.world slot c.remote else c.world
    type := if c.cIsTls then .rpcExtServerDrs else c.type }

/-- The session goes on here or at a data centre. -/
def enterSession (slot : ℕ) : Stage W := fun c =>
  if env.directMode then
    .error (.ret (directConnectToDc env.toOutboundEnv (countSession env c slot)) 0)
  else .ok (countSession env c slot)

/-- A header that a secret opens. -/
def acceptObfs2 (pr : Obfs2ParseResult) (slot : ℕ) : Stage W := fun c =>
  match cpuTcpAesCryptoCtr128DecryptInput (startCrypto env c pr) with
  | .error a => .error (.abort a)
  | .ok (c, r) =>
    if r < 0 then .error (.ret (failConnection c (-1)) 0)
    else (admitSlot env slot (setTarget c pr slot)).bind (enterSession env slot)

/-- The obfuscated2 header. -/
def obfs2Header : Stage W := fun c =>
  if c.inp.length < 64 then .error (.ret c (64 - c.inp.length))
  else
    let slots := slotsInUse (env.secrets c.world)
    let header := c.inp.take 64
    let c := c.record (.obfs2Header header)
    match obfs2ParseHeader env.prim header (slots.map Prod.snd) env.extRandPadOnly with
    | none =>
      .error (.ret
        { c with rpc := { c.rpc with extraInt2 := if c.cIsTls then 0 else c.rpc.extraInt2 } }
        GLOBAL_SKIP)
    | some pr =>
      match env.defaultDomainInfo with
      | some dflt =>
        if pr.tag ≠ OBFS2_TAG_PAD ∧ c.transportMode = .ws then
          .error (returnTlsError env c dflt)
        else acceptObfs2 env pr ((slots.map Prod.fst).getD pr.secretId env.staleSlot) c
      | none => acceptObfs2 env pr ((slots.map Prod.fst).getD pr.secretId env.staleSlot) c

/-- The stages of a connection whose obfuscated2 header has not been accepted. -/
def handshake : Stage W := fun c =>
  ((proxyHeader env c).bind (fakeTls env)).bind (obfs2Header env)

/-! ### Packets -/

/-- `RPC_F_QUICKACK` of a packet, from its first four bytes. -/
def packetQuickack (flags : RpcFlags) (packetLen : ℕ) : Bool :=
  if flags.medium then decide (2 ^ 31 ≤ packetLen) else decide (packetLen / 2 ^ 7 % 2 = 1)

/-- The bit is set in `D->flags`. -/
def Conn.setQuickack (c : Conn W) (quickack : Bool) : Conn W :=
  { c with rpc := { c.rpc with flags := { c.rpc.flags with quickack := quickack } } }

/-- `packet_len` and `packet_len_bytes`.  A compact length in overlong encoding has none. -/
def packetLength (flags : RpcFlags) (packetLen : ℕ) : Option (ℕ × ℕ) :=
  if flags.medium then some (packetLen % 2 ^ 31, 4)
  else if packetLen % 2 ^ 7 = 0x7f then
    if packetLen / 2 ^ 8 < 0x7f then none else some (packetLen / 2 ^ 8 * 4, 4)
  else some (packetLen % 2 ^ 7 * 4, 1)

/-- A length that ends the connection. -/
def BadPacketLength (flags : RpcFlags) (packetLen : ℕ) : Prop :=
  packetLen = 0 ∨ 2 ^ 30 ≤ packetLen ∨ (flags.pad = false ∧ packetLen % 4 ≠ 0) ∨
    MAX_POST_SIZE < packetLen

instance (flags : RpcFlags) (packetLen : ℕ) : Decidable (BadPacketLength flags packetLen) := by
  unfold BadPacketLength
  infer_instance

/-- `tcp_rpcs_default_execute` on a ping. -/
def tcpRpcsDefaultExecute (c : Conn W) (msg : Bytes) : Conn W :=
  if msg.length = 12 then
    { c with outQueue := c.outQueue ++ [le32 RPC_PONG ++ msg.drop 4] }
  else c

/-- `ext_rpcs_execute`.  Its result decides about the message's memory only. -/
def extRpcsExecute (c : Conn W) (msg : Bytes) : Conn W :=
  if MAX_POST_SIZE < msg.length then c
  else if MAX_CONNECTION_BUFFER_SPACE <
      wrap32 (c.inp.length + c.inU.length + c.out.length + c.outP.length) then
    failConnection c (-429)
  else { c with world := env.scheduleExecute c.world msg c.rpc.flags }

/-- A packet goes to its handler. -/
def executePacket (c : Conn W) (msg : Bytes) : Conn W :=
  let c := c.record (.packet msg)
  if readLe32 msg = RPC_PING then tcpRpcsDefaultExecute c msg else extRpcsExecute env c msg

/-- `msg`: a packet without what `rwm_trunc` takes from its end in padded mode. -/
def packetMsg (flags : RpcFlags) (packetLen : ℕ) (payload : Bytes) : Bytes :=
  if flags.pad then payload.take (packetLen / 4 * 4) else payload

/-- A whole packet is taken out of `in`. -/
def takePacket (packetLen packetLenBytes : ℕ) : Stage W := fun c =>
  if c.inp.length < packetLenBytes then .error (.abort .packetLenBytes)
  else
    let msg := packetMsg c.rpc.flags packetLen ((c.inp.drop packetLenBytes).take packetLen)
    let num := c.rpc.inPacketNum
    if msg.length < 4 then .error (.abort .packetType)
    else if num < 0 ∧ num ≠ -3 then .error (.abort .inPacketNum)
    else
      let c := (c.skipData (packetLenBytes + packetLen)).setInPacketNum (if num < 0 then 0 else num)
      let c := executePacket env c msg
      .ok (c.setInPacketNum (wrap32 (c.rpc.inPacketNum + 1)))

/-- The packet loop's part of a turn. -/
def parsePacket : Stage W := fun c =>
  let packetLen := readLe32 c.inp
  -- A transport error: minus its code in place of a length.
  if c.rpc.flags.medium ∧ 2 ^ 32 - 1000 < packetLen then .error (.ret (failConnection c (-1)) 0)
  else
    let c := c.setQuickack (packetQuickack c.rpc.flags packetLen)
    match packetLength c.rpc.flags packetLen with
    | none => .error (.ret (failConnection c (-1)) 0)
    | some (packetLen, packetLenBytes) =>
      if BadPacketLength c.rpc.flags packetLen then .error (.ret (failConnection c (-1)) 0)
      else if c.inp.length < packetLen + packetLenBytes then
        .error (.ret c (packetLen + packetLenBytes - c.inp.length))
      else takePacket env packetLen packetLenBytes c

/-! ### The loop -/

/-- What follows the stages about the transport. -/
def parseSession : Stage W := fun c =>
  ((parseFlags c).bind parseLength).bind fun c =>
    if c.rpc.inPacketNum = -3 then handshake env c else parsePacket env c

/-- A turn of the loop, in stages. -/
def parseStages : Stage W := fun c =>
  ((detect env.acceptKey c).bind (preCrypto env)).bind (parseSession env)

/-- How `tcp_rpcs_compact_parse_execute` ends: in an assertion, or with what it returns. -/
abbrev ParseResult (W : Type*) := Except Abort (Conn W × ℤ)

/-- The result behind an exit. -/
def ParseExit.result : ParseExit W → ParseResult W
  | .ret c res => .ok (c, res)
  | .abort a => .error a

/-- A turn of the loop. -/
def parseTurn (c : Conn W) : Turn (Conn W) (ParseResult W) :=
  match parseStages env c with
  | .ok c => .again c
  | .error exit => .done exit.result

end Server
end Teleproto3
