/-
# The connection to a data centre

`ct_direct_dc` of `server/src/net/net-tcp-direct-dc.c`: the connection a client's bytes go to.
Once it stands it shakes hands with a SOCKS5 proxy, if there is one, sends the obfuscated2 init,
and from then on hands what it decrypts to the client, and the client's bytes to the data centre.

Its methods act on the client as well, so it is a `Conn` whose world is the client's connection.
What it relays is queued behind its `extra`, as what the client relays is queued behind the
client's.  They are called for this connection only, whose `type` no modelled function reads.

The address of a data centre, the random bytes of the init and the counters of a secret are
functions of the surroundings.  The init is drawn until it looks like no other protocol; what
is drawn last is the parameter here.
-/

import Teleproto3.Server.Alarm
import Teleproto3.Server.Obfs2

namespace Teleproto3
namespace Server

open Lib

/-! ### The surroundings -/

/-- `struct dc_addr`, with the port as the two bytes of a CONNECT request. -/
structure DcAddr where
  ipv4 : Bytes
  ipv6 : Bytes
  port : ℕ
  deriving DecidableEq, Repr

/-- `socks5_config`, and the addresses a SOCKS5 proxy is asked to connect to. -/
structure Socks5Config where
  enabled : Bool
  user : Bytes
  pass : Bytes
  ipv6Enabled : Bool
  /-- the address of this number in the entry `direct_dc_lookup` finds -/
  dcAddr : ℤ → ℕ → DcAddr

/-- What a connection to a data centre takes from its surroundings. -/
structure DirectEnv (W : Type*) extends OutboundEnv W where
  prim : Primitives
  socks5 : Socks5Config
  /-- the number of the address `direct_try_dc_addrs` has connected to -/
  addrIndex : W → ℕ
  /-- `outbound_dc`: the number of the entry, with the sign of the target -/
  outboundDc : ℤ → ℤ
  /-- the 64 random bytes of an init -/
  randInit : W → Bytes × W
  /-- the counters after so many bytes to this slot and address, and `secret_over_quota` -/
  accountSent : W → ℕ → RemoteAddr → ℕ → Bool × W

/-- `SOCKS5_NONE`. -/
def SOCKS5_NONE : ℕ := 0

/-- `SOCKS5_GREETING_SENT`. -/
def SOCKS5_GREETING_SENT : ℕ := 1

/-- `SOCKS5_AUTH_SENT`. -/
def SOCKS5_AUTH_SENT : ℕ := 2

/-- `SOCKS5_CONNECT_SENT`. -/
def SOCKS5_CONNECT_SENT : ℕ := 3

variable {W : Type*}

/-- The connection in another world. -/
def Conn.over {U V : Type*} (c : Conn U) (w : V) : Conn V := { c with world := w }

/-- `D->extra_int`. -/
def Conn.setExtraInt (c : Conn W) (state : ℕ) : Conn W :=
  { c with rpc := { c.rpc with extraInt := state } }

/-! ### The SOCKS5 handshake -/

section Socks5

variable (config : Socks5Config)

/-- `socks5_send_greeting`. -/
def socks5SendGreeting (c : Conn W) : Conn W :=
  { c with
    out := c.out ++ if config.user ≠ [] then [0x05, 0x02, 0x00, 0x02] else [0x05, 0x01, 0x00] }

/-- `socks5_send_auth`. -/
def socks5SendAuth (c : Conn W) : Conn W :=
  { c with
    out := c.out ++ [0x01, UInt8.ofNat config.user.length] ++ config.user ++
      [UInt8.ofNat config.pass.length] ++ config.pass }

/-- `socks5_send_connect`. -/
def socks5SendConnect (c : Conn W) : Conn W :=
  let addr := config.dcAddr c.rpc.extraInt4 c.rpc.extraInt2
  let port := [UInt8.ofNat (addr.port / 256), UInt8.ofNat addr.port]
  { c with
    out := c.out ++ [0x05, 0x01, 0x00] ++
      (if config.ipv6Enabled ∧ addr.ipv6 ≠ List.replicate 16 0 then 0x04 :: addr.ipv6
        else 0x01 :: addr.ipv4) ++ port }

/-- What `socks5_handle_response` returns: 1, 0 and -1. -/
inductive Socks5Result
  | inProgress
  | complete
  | failed
  deriving DecidableEq, Repr

/-- The length of the address in a reply to a CONNECT request, from its fourth and fifth byte. -/
def socks5AddrLen (atyp len : UInt8) : Option ℕ :=
  if atyp = 0x01 then some 4
  else if atyp = 0x04 then some 16
  else if atyp = 0x03 then some (1 + len.toNat)
  else none

/-- The methods the proxy chose. -/
def socks5Greeted (c : Conn W) : Conn W × Socks5Result :=
  if c.inp.length < 2 then (c, .inProgress)
  else
    let resp := c.inp
    let c := c.skipData 2
    if resp.getD 0 0 ≠ 0x05 then (c, .failed)
    else if resp.getD 1 0 = 0x00 then
      ((socks5SendConnect config c).setExtraInt SOCKS5_CONNECT_SENT, .inProgress)
    else if resp.getD 1 0 = 0x02 then
      if config.user = [] then (c, .failed)
      else ((socks5SendAuth config c).setExtraInt SOCKS5_AUTH_SENT, .inProgress)
    else (c, .failed)

/-- The proxy's answer to the user's name and password. -/
def socks5Authorized (c : Conn W) : Conn W × Socks5Result :=
  if c.inp.length < 2 then (c, .inProgress)
  else if c.inp.getD 1 0 ≠ 0x00 then (c.skipData 2, .failed)
  else ((socks5SendConnect config (c.skipData 2)).setExtraInt SOCKS5_CONNECT_SENT, .inProgress)

/-- The proxy's answer to the CONNECT request. -/
def socks5Connected (c : Conn W) : Conn W × Socks5Result :=
  if c.inp.length < 5 then (c, .inProgress)
  else
    match socks5AddrLen (c.inp.getD 3 0) (c.inp.getD 4 0) with
    | none => (c, .failed)
    | some addrLen =>
      let total := 4 + addrLen + 2
      if c.inp.length < total then (c, .inProgress)
      else if c.inp.getD 1 0 ≠ 0x00 then (c.skipData total, .failed)
      else ((c.skipData total).setExtraInt SOCKS5_NONE, .complete)

/-- `socks5_handle_response`. -/
def socks5HandleResponse (c : Conn W) : Conn W × Socks5Result :=
  if c.rpc.extraInt = SOCKS5_GREETING_SENT then socks5Greeted config c
  else if c.rpc.extraInt = SOCKS5_AUTH_SENT then socks5Authorized config c
  else if c.rpc.extraInt = SOCKS5_CONNECT_SENT then socks5Connected c
  else (c, .failed)

/-- What a step of the handshake leaves as it was. -/
structure Socks5Keeps (c c' : Conn W) : Prop where
  extra : c'.extra = c.extra
  world : c'.world = c.world
  crypto : c'.crypto = c.crypto
  cError : c'.cError = c.cError
  skipBytes : c'.skipBytes = c.skipBytes
  transportMode : c'.transportMode = c.transportMode
  inp : c'.inp <:+ c.inp

theorem Socks5Keeps.refl (c : Conn W) : Socks5Keeps c c :=
  ⟨rfl, rfl, rfl, rfl, rfl, rfl, List.suffix_rfl⟩

theorem Socks5Keeps.skipData (c : Conn W) (n : ℕ) : Socks5Keeps c (c.skipData n) :=
  ⟨rfl, rfl, rfl, rfl, rfl, rfl, List.drop_suffix n c.inp⟩

theorem socks5SendConnect_keeps (c : Conn W) (n state : ℕ) :
    Socks5Keeps c ((socks5SendConnect config (c.skipData n)).setExtraInt state) :=
  ⟨rfl, rfl, rfl, rfl, rfl, rfl, List.drop_suffix n c.inp⟩

theorem socks5Greeted_keeps (c : Conn W) : Socks5Keeps c (socks5Greeted config c).1 := by
  unfold socks5Greeted
  dsimp only
  split_ifs
  · exact .refl c
  · exact .skipData c 2
  · exact socks5SendConnect_keeps config c 2 _
  · exact .skipData c 2
  · exact ⟨rfl, rfl, rfl, rfl, rfl, rfl, List.drop_suffix 2 c.inp⟩
  · exact .skipData c 2

theorem socks5Authorized_keeps (c : Conn W) : Socks5Keeps c (socks5Authorized config c).1 := by
  unfold socks5Authorized
  split_ifs
  · exact .refl c
  · exact .skipData c 2
  · exact socks5SendConnect_keeps config c 2 _

theorem socks5Connected_keeps (c : Conn W) : Socks5Keeps c (socks5Connected c).1 := by
  unfold socks5Connected
  split
  · exact .refl c
  · split
    · exact .refl c
    · next addrLen _ =>
      dsimp only
      split_ifs
      · exact .refl c
      · exact .skipData c _
      · exact ⟨rfl, rfl, rfl, rfl, rfl, rfl, List.drop_suffix _ c.inp⟩

/-- **The handshake leaves the client alone**, and only takes from the front of `in`. -/
theorem socks5HandleResponse_keeps (c : Conn W) :
    Socks5Keeps c (socks5HandleResponse config c).1 := by
  unfold socks5HandleResponse
  split_ifs
  · exact socks5Greeted_keeps config c
  · exact socks5Authorized_keeps config c
  · exact socks5Connected_keeps c
  · exact .refl c

/-- The handshake is left only when it is complete. -/
theorem socks5HandleResponse_extraInt {c : Conn W} (hsocks : 0 < c.rpc.extraInt) :
    (socks5HandleResponse config c).2 = .complete ∨
      0 < (socks5HandleResponse config c).1.rpc.extraInt := by
  unfold socks5HandleResponse
  split_ifs
  · refine Or.inr ?_
    unfold socks5Greeted
    dsimp only
    split_ifs <;> first | exact hsocks | exact Nat.succ_pos _
  · refine Or.inr ?_
    unfold socks5Authorized
    split_ifs <;> first | exact hsocks | exact Nat.succ_pos _
  · unfold socks5Connected
    split
    · exact Or.inr hsocks
    · split
      · exact Or.inr hsocks
      · dsimp only
        split_ifs
        · exact Or.inr hsocks
        · exact Or.inr hsocks
        · exact Or.inl rfl
  · exact Or.inr hsocks

/-- The length of the reply to a CONNECT request, where its address is of a known type. -/
def socks5ReplyLength (reply : Bytes) : Option ℕ :=
  (socks5AddrLen (reply.getD 3 0) (reply.getD 4 0)).map fun addrLen => 4 + addrLen + 2

/-- The handshake ends in the reply to the CONNECT request. -/
theorem socks5HandleResponse_complete {c c' : Conn W}
    (h : socks5HandleResponse config c = (c', .complete)) :
    c.rpc.extraInt = SOCKS5_CONNECT_SENT ∧ ∃ total, socks5ReplyLength c.inp = some total ∧
      total ≤ c.inp.length ∧ c' = (c.skipData total).setExtraInt SOCKS5_NONE := by
  unfold socks5HandleResponse at h
  split_ifs at h with hgreet hauth hconnect
  · unfold socks5Greeted at h
    dsimp only at h
    split_ifs at h <;> exact nomatch congrArg Prod.snd h
  · unfold socks5Authorized at h
    split_ifs at h <;> exact nomatch congrArg Prod.snd h
  · unfold socks5Connected at h
    dsimp only at h
    split at h
    · exact nomatch congrArg Prod.snd h
    · split at h
      · exact nomatch congrArg Prod.snd h
      · next addrLen haddr =>
        split_ifs at h with hlen
        · exact nomatch congrArg Prod.snd h
        · exact nomatch congrArg Prod.snd h
        · refine ⟨hconnect, 4 + addrLen + 2, ?_, not_lt.mp hlen, (congrArg Prod.fst h).symm⟩
          rw [socks5ReplyLength, haddr]
          rfl
  · exact nomatch congrArg Prod.snd h

end Socks5

variable (env : DirectEnv W)

/-! ### The obfuscated2 init -/

/-- The 64 bytes with the tag of the client's transport and the data centre in them. -/
def obfs2Init (random : Bytes) (clientTag : ℕ) (targetDc : ℤ) : Bytes :=
  random.take 56 ++ le32 (if clientTag = 0 then OBFS2_TAG_MEDIUM else clientTag) ++
    (le32 (targetDc % 2 ^ 16).toNat).take 2 ++ random.drop 62

/-- The keys of an init, for the end that sends it. -/
def obfs2InitKeys (init : Bytes) : AesKeyData where
  writeKey := (init.drop 8).take 32
  writeIv := (init.drop 40).take 16
  readKey := ((init.drop 24).take 32).reverse
  readIv := ((init.drop 8).take 16).reverse

/-- The cipher of an init is set up, and the init put into `out_p`, its last eight bytes
encrypted. -/
def Conn.sendInit (c : Conn W) (prim : Primitives) (init : Bytes) : Conn W :=
  let keys := obfs2InitKeys init
  let write := prim.aes256Ctr keys.writeKey keys.writeIv
  { c with
    outP := c.outP ++ (init.take 56 ++ ((xorAt write 0 init).drop 56).take 8)
    crypto := some ⟨⟨prim.aes256Ctr keys.readKey keys.readIv, 0⟩, ⟨write, 64⟩⟩ }

/-- `tcp_direct_dc_send_obfs2_init`.  The client waits for no more bytes. -/
def tcpDirectDcSendObfs2Init (c : Conn (Conn W)) : Conn (Conn W) :=
  let (random, world) := env.randInit c.world.world
  let c := c.over { c.world with world := world }
  let c := c.sendInit env.prim (obfs2Init random c.rpc.extraInt3 c.rpc.extraInt4)
  if c.extra ≠ .null then c.over { c.world with skipBytes := 0 } else c

/-- `tcp_direct_dc_connected`. -/
def tcpDirectDcConnected (c : Conn (Conn W)) : Conn (Conn W) :=
  if env.socks5.enabled then (socks5SendGreeting env.socks5 c).setExtraInt SOCKS5_GREETING_SENT
  else tcpDirectDcSendObfs2Init env c

/-! ### The relay -/

/-- `tcp_direct_relay`. -/
def tcpDirectRelay (c : Conn W) : Except Abort (Conn W) :=
  match c.extra with
  | .null => .ok (failConnection c (-1))
  | .methods => .error .methodsAsJob
  | .job e => .ok (relayTo c e)

/-- `rate_limit_after_relay` for the connection to a data centre. -/
def pauseDcFor (c : Conn (Conn W)) : Option ℚ → Conn (Conn W)
  | none => c
  | some delay =>
    { c with cStopRead := true, timer := some (env.preciseNow c.world.world + delay) }

/-- What `tcp_direct_dc_parse_execute` does behind the handshake: bytes for a client whose
connection is counted are counted as well, and relayed if that leaves the secret under its
quota. -/
def tcpDirectDcRelay (c : Conn (Conn W)) : Except Abort (Conn (Conn W) × ℤ) :=
  let client := c.world
  let sid := client.rpc.extraInt2
  if c.extra ≠ .null ∧ 0 < c.inp.length ∧ 0 < sid ∧ sid ≤ EXT_SECRET_MAX_SLOTS then
    let relayBytes := c.inp.length
    let (overQuota, world) := env.accountSent client.world (sid - 1) client.remote relayBytes
    let c := c.over { client with world := world }
    if overQuota then .ok (failConnection c (-1), 0)
    else
      match tcpDirectRelay c with
      | .error a => .error a
      | .ok c =>
        let (delay, world) :=
          env.rateLimitAfterRelay c.world.world (sid - 1) client.remote relayBytes
        .ok (pauseDcFor env (c.over { c.world with world := world }) delay, 0)
  else
    match tcpDirectRelay c with
    | .error a => .error a
    | .ok c => .ok (c, 0)

/-- `tcp_direct_dc_parse_execute`. -/
def tcpDirectDcParseExecute (c : Conn (Conn W)) : Except Abort (Conn (Conn W) × ℤ) :=
  if c.rpc.extraInt > 0 then
    match socks5HandleResponse env.socks5 c with
    | (c, .inProgress) => .ok (c, NEED_MORE_BYTES)
    | (c, .failed) => .ok (failConnection c (-1), 0)
    | (c, .complete) => .ok (tcpDirectDcSendObfs2Init env c, 0)
  else tcpDirectDcRelay env c

/-! ### What a call comes to -/

/-- A call with bytes of a connection that is counted under a slot. -/
def Counts (client : Conn W) (bytes : ℕ) : Prop :=
  0 < client.rpc.extraInt2 ∧ client.rpc.extraInt2 ≤ EXT_SECRET_MAX_SLOTS ∧ 0 < bytes

instance (client : Conn W) (bytes : ℕ) : Decidable (Counts client bytes) := by
  unfold Counts
  infer_instance

/-- The calls of `tcp_direct_client_parse_execute`: the client waits, it has nobody to wait for,
or its bytes are relayed, after they were counted and found to be within the quota where the
connection is counted. -/
inductive ClientCall (env : OutboundEnv W) (c : Conn W) : Conn W → ℤ → Prop
  | waits (h : c.extra = .null ∨ env.dcReady c.world = false) : ClientCall env c c NEED_MORE_BYTES
  | gone (h : c.extra = .null) : ClientCall env c (failConnection c (-1)) 0
  | uncounted {e : Outbound} (h : c.extra = .job e) (hready : env.dcReady c.world = true)
      (hcount : ¬ Counts c c.inp.length) : ClientCall env c (relayTo c e) 0
  | refused {e : Outbound} (h : c.extra = .job e) (hready : env.dcReady c.world = true)
      (hcount : Counts c c.inp.length) {w : W}
      (haccount : env.accountBytes c.world (c.rpc.extraInt2 - 1) c.remote c.inp.length = (true, w)) :
      ClientCall env c (failConnection (c.over w) (-1)) 0
  | relayed {e : Outbound} (h : c.extra = .job e) (hready : env.dcReady c.world = true)
      (hcount : Counts c c.inp.length) {w w' : W} {delay : Option ℚ}
      (haccount : env.accountBytes c.world (c.rpc.extraInt2 - 1) c.remote c.inp.length = (false, w))
      (hrate : env.rateLimitAfterRelay w (c.rpc.extraInt2 - 1) c.remote c.inp.length = (delay, w')) :
      ClientCall env c (pauseFor env (relayTo (c.over w') e) delay) 0

/-- A call with a data centre that is ready. -/
theorem tcpDirectClientParseExecute_ready {env : OutboundEnv W} {c : Conn W} {e : Outbound}
    (h : c.extra = .job e) (hready : env.dcReady c.world = true) :
    tcpDirectClientParseExecute env c =
      if Counts c c.inp.length then
        let account :=
          env.accountBytes c.world (c.rpc.extraInt2 - 1) c.remote c.inp.length
        let rate := env.rateLimitAfterRelay account.2 (c.rpc.extraInt2 - 1) c.remote c.inp.length
        if account.1 then .ok (failConnection (c.over account.2) (-1), 0)
        else .ok (pauseFor env (relayTo (c.over rate.2) e) rate.1, 0)
      else .ok (relayTo c e, 0) := by
  cases c
  cases h
  unfold tcpDirectClientParseExecute
  dsimp only at hready ⊢
  rw [hready, if_neg Bool.noConfusion]
  rfl

/-- **A client's call is one of these.** -/
theorem ClientCall.of_parse {env : OutboundEnv W} {c c' : Conn W} {res : ℤ}
    (h : tcpDirectClientParseExecute env c = .ok (c', res)) : ClientCall env c c' res := by
  cases hextra : c.extra with
  | null =>
    unfold tcpDirectClientParseExecute at h
    rw [hextra] at h
    dsimp only at h
    split at h
    · cases h
      exact .waits (Or.inl hextra)
    · cases h
      exact .gone hextra
  | methods =>
    unfold tcpDirectClientParseExecute at h
    rw [hextra] at h
    exact nomatch h
  | job e =>
    cases hready : env.dcReady c.world with
    | false =>
      unfold tcpDirectClientParseExecute at h
      rw [hextra] at h
      dsimp only at h
      rw [if_pos hready] at h
      cases h
      exact .waits (Or.inr hready)
    | true =>
      rw [tcpDirectClientParseExecute_ready hextra hready] at h
      by_cases hcount : Counts c c.inp.length
      · rw [if_pos hcount] at h
        rcases haccount : env.accountBytes c.world (c.rpc.extraInt2 - 1) c.remote c.inp.length with
          ⟨overQuota, w⟩
        rcases hrate : env.rateLimitAfterRelay w (c.rpc.extraInt2 - 1) c.remote c.inp.length with
          ⟨delay, w'⟩
        simp only [haccount, hrate] at h
        cases overQuota with
        | true =>
          cases h
          exact .refused hextra hready hcount haccount
        | false =>
          cases h
          exact .relayed hextra hready hcount haccount hrate
      · rw [if_neg hcount] at h
        cases h
        exact .uncounted hextra hready hcount

/-- The calls of `tcp_direct_dc_parse_execute`: a step of the SOCKS5 handshake, or bytes for the
client, as in `ClientCall`. -/
inductive DcCall (env : DirectEnv W) (c : Conn (Conn W)) : Conn (Conn W) → ℤ → Prop
  | greets (h : 0 < c.rpc.extraInt) {c' : Conn (Conn W)}
      (hsocks : socks5HandleResponse env.socks5 c = (c', .inProgress)) :
      DcCall env c c' NEED_MORE_BYTES
  | rejected (h : 0 < c.rpc.extraInt) {c' : Conn (Conn W)}
      (hsocks : socks5HandleResponse env.socks5 c = (c', .failed)) :
      DcCall env c (failConnection c' (-1)) 0
  | starts (h : 0 < c.rpc.extraInt) {c' : Conn (Conn W)}
      (hsocks : socks5HandleResponse env.socks5 c = (c', .complete)) :
      DcCall env c (tcpDirectDcSendObfs2Init env c') 0
  | gone (hdone : c.rpc.extraInt = 0) (h : c.extra = .null) :
      DcCall env c (failConnection c (-1)) 0
  | uncounted (hdone : c.rpc.extraInt = 0) {e : Outbound} (h : c.extra = .job e)
      (hcount : ¬ Counts c.world c.inp.length) : DcCall env c (relayTo c e) 0
  | refused (hdone : c.rpc.extraInt = 0) (h : c.extra ≠ .null)
      (hcount : Counts c.world c.inp.length) {w : W}
      (haccount : env.accountSent c.world.world (c.world.rpc.extraInt2 - 1) c.world.remote
        c.inp.length = (true, w)) :
      DcCall env c (failConnection (c.over (c.world.over w)) (-1)) 0
  | relayed (hdone : c.rpc.extraInt = 0) {e : Outbound} (h : c.extra = .job e)
      (hcount : Counts c.world c.inp.length) {w w' : W} {delay : Option ℚ}
      (haccount : env.accountSent c.world.world (c.world.rpc.extraInt2 - 1) c.world.remote
        c.inp.length = (false, w))
      (hrate : env.rateLimitAfterRelay w (c.world.rpc.extraInt2 - 1) c.world.remote c.inp.length =
        (delay, w')) :
      DcCall env c (pauseDcFor env (relayTo (c.over (c.world.over w')) e) delay) 0

/-- A call behind the handshake for a client that is counted. -/
theorem tcpDirectDcRelay_counted {env : DirectEnv W} {c : Conn (Conn W)} (h : c.extra ≠ .null)
    (hcount : Counts c.world c.inp.length) :
    tcpDirectDcRelay env c =
      let account :=
        env.accountSent c.world.world (c.world.rpc.extraInt2 - 1) c.world.remote c.inp.length
      let d := c.over (c.world.over account.2)
      if account.1 then .ok (failConnection d (-1), 0)
      else
        match tcpDirectRelay d with
        | .error a => .error a
        | .ok d =>
          let rate := env.rateLimitAfterRelay d.world.world (c.world.rpc.extraInt2 - 1)
            c.world.remote c.inp.length
          .ok (pauseDcFor env (d.over (d.world.over rate.2)) rate.1, 0) := by
  unfold tcpDirectDcRelay
  dsimp only
  rw [if_pos ⟨h, hcount.2.2, hcount.1, hcount.2.1⟩]
  rfl

/-- A call behind the handshake for a client that is not. -/
theorem tcpDirectDcRelay_uncounted {env : DirectEnv W} {c : Conn (Conn W)}
    (h : c.extra = .null ∨ ¬ Counts c.world c.inp.length) :
    tcpDirectDcRelay env c = (tcpDirectRelay c).map fun d => (d, 0) := by
  unfold tcpDirectDcRelay
  dsimp only
  rw [if_neg]
  · cases tcpDirectRelay c <;> rfl
  · rintro ⟨hextra, hbytes, hpos, hmax⟩
    exact h.elim hextra fun hcount => hcount ⟨hpos, hmax, hbytes⟩

/-- **A call of the data centre's connection is one of these.** -/
theorem DcCall.of_parse {env : DirectEnv W} {c c' : Conn (Conn W)} {res : ℤ}
    (h : tcpDirectDcParseExecute env c = .ok (c', res)) : DcCall env c c' res := by
  unfold tcpDirectDcParseExecute at h
  by_cases hsocks : c.rpc.extraInt > 0
  · rw [if_pos hsocks] at h
    rcases hres : socks5HandleResponse env.socks5 c with ⟨d, _ | _ | _⟩
    · rw [hres] at h
      cases h
      exact .greets hsocks hres
    · rw [hres] at h
      cases h
      exact .starts hsocks hres
    · rw [hres] at h
      cases h
      exact .rejected hsocks hres
  · rw [if_neg hsocks] at h
    have hdone : c.rpc.extraInt = 0 := Nat.eq_zero_of_not_pos hsocks
    by_cases hcount : c.extra ≠ .null ∧ Counts c.world c.inp.length
    · obtain ⟨hextra, hcount⟩ := hcount
      rw [tcpDirectDcRelay_counted hextra hcount] at h
      rcases haccount : env.accountSent c.world.world (c.world.rpc.extraInt2 - 1) c.world.remote
        c.inp.length with ⟨overQuota, w⟩
      simp only [haccount] at h
      cases overQuota with
      | true =>
        cases h
        exact .refused hdone hextra hcount haccount
      | false =>
        cases hjob : c.extra with
        | null => exact absurd hjob hextra
        | methods =>
          simp only [tcpDirectRelay, Conn.over, hjob] at h
          exact nomatch h
        | job e =>
          rcases hrate : env.rateLimitAfterRelay w (c.world.rpc.extraInt2 - 1) c.world.remote
            c.inp.length with ⟨delay, w'⟩
          have hrelay : tcpDirectRelay (c.over (c.world.over w)) =
              .ok (relayTo (c.over (c.world.over w)) e) := by
            unfold tcpDirectRelay
            simp only [Conn.over, hjob]
          rw [hrelay] at h
          have hrate' : env.rateLimitAfterRelay (relayTo (c.over (c.world.over w)) e).world.world
              (c.world.rpc.extraInt2 - 1) c.world.remote c.inp.length = (delay, w') := hrate
          simp only [Bool.false_eq_true, if_false, hrate'] at h
          cases h
          exact .relayed hdone hjob hcount haccount hrate
    · rw [tcpDirectDcRelay_uncounted (by tauto)] at h
      unfold tcpDirectRelay at h
      cases hjob : c.extra with
      | null =>
        rw [hjob] at h
        cases h
        exact .gone hdone hjob
      | methods =>
        rw [hjob] at h
        exact nomatch h
      | job e =>
        rw [hjob] at h
        cases h
        refine .uncounted hdone hjob fun hcounts => hcount ⟨?_, hcounts⟩
        rw [hjob]
        exact (nomatch ·)

/-! ### What a call moves -/

/-- What is queued behind `extra`. -/
def Extra.queue : Extra → List Bytes
  | .job e => e.outQueue
  | _ => []

/-- `extra` points to a connection. -/
def Extra.isJob : Extra → Bool
  | .job _ => true
  | _ => false

/-- A call that takes messages from the front of `in` and queues them, and leaves the rest of
the connection alone. -/
structure MovesFrom (c c' : Conn W) : Prop where
  moved : ∃ m, c'.extra.queue = c.extra.queue ++ m ∧ m.flatten ++ c'.inp = c.inp
  isJob : c'.extra.isJob = c.extra.isJob
  crypto : c'.crypto = c.crypto
  skipBytes : c'.skipBytes = c.skipBytes
  type : c'.type = c.type
  rpc : c'.rpc = c.rpc
  transportMode : c'.transportMode = c.transportMode

theorem MovesFrom.of_same {c c' : Conn W} (hextra : c'.extra = c.extra) (hinp : c'.inp = c.inp)
    (hcrypto : c'.crypto = c.crypto) (hskip : c'.skipBytes = c.skipBytes)
    (htype : c'.type = c.type) (hrpc : c'.rpc = c.rpc)
    (hmode : c'.transportMode = c.transportMode) : MovesFrom c c' where
  moved := ⟨[], by rw [hextra, List.append_nil], by rw [hinp]; rfl⟩
  isJob := by rw [hextra]
  crypto := hcrypto
  skipBytes := hskip
  type := htype
  rpc := hrpc
  transportMode := hmode

theorem MovesFrom.refl (c : Conn W) : MovesFrom c c := .of_same rfl rfl rfl rfl rfl rfl rfl

theorem MovesFrom.trans {c d e : Conn W} (h : MovesFrom c d) (h' : MovesFrom d e) :
    MovesFrom c e := by
  obtain ⟨m, hqueue, hinp⟩ := h.moved
  obtain ⟨m', hqueue', hinp'⟩ := h'.moved
  exact
    { moved := ⟨m ++ m', by rw [hqueue', hqueue, List.append_assoc],
        by rw [List.flatten_append, List.append_assoc, hinp', hinp]⟩
      isJob := h'.isJob.trans h.isJob
      crypto := h'.crypto.trans h.crypto
      skipBytes := h'.skipBytes.trans h.skipBytes
      type := h'.type.trans h.type
      rpc := h'.rpc.trans h.rpc
      transportMode := h'.transportMode.trans h.transportMode }

/-- A relay moves all of `in`. -/
theorem MovesFrom.of_relay {c d : Conn W} {e : Outbound} (h : c.extra = .job e)
    (hd : MovesFrom (relayTo c e) d) : MovesFrom c d := by
  obtain ⟨m, hqueue, hinp⟩ := hd.moved
  refine ⟨⟨[c.inp] ++ m, ?_, ?_⟩, ?_, hd.crypto, hd.skipBytes, hd.type, hd.rpc, hd.transportMode⟩
  · rw [hqueue, h]
    simp [relayTo, Extra.queue]
  · obtain ⟨hnil, hrest⟩ := List.append_eq_nil_iff.mp hinp
    rw [List.flatten_append, hnil, hrest]
    simp
  · rw [hd.isJob, h]
    rfl

/-- **What a client's call moves**: nothing as long as the data centre is not ready. -/
theorem ClientCall.movesFrom {env : OutboundEnv W} {c c' : Conn W} {res : ℤ}
    (h : ClientCall env c c' res) : MovesFrom c c' := by
  cases h with
  | waits h => exact .refl c
  | gone h => exact .of_same rfl rfl rfl rfl rfl rfl rfl
  | uncounted h hready hcount => exact .of_relay h (.refl _)
  | refused h hready hcount haccount => exact .of_same rfl rfl rfl rfl rfl rfl rfl
  | @relayed e h hready hcount w w' delay haccount hrate =>
    have hpause : MovesFrom (relayTo c e) (pauseFor env (relayTo (c.over w') e) delay) := by
      cases delay <;> exact .of_same rfl rfl rfl rfl rfl rfl rfl
    exact .of_relay h hpause

/-- A client's call says that all is done or that bytes are missing. -/
theorem ClientCall.res {env : OutboundEnv W} {c c' : Conn W} {res : ℤ}
    (h : ClientCall env c c' res) : res = 0 ∨ res = NEED_MORE_BYTES := by
  cases h <;> simp

theorem ClientCall.extra_of_not_ready {env : OutboundEnv W} {c c' : Conn W} {res : ℤ}
    (h : ClientCall env c c' res) (hready : env.dcReady c.world = false) :
    c'.extra = c.extra ∧ c'.inp = c.inp := by
  cases h with
  | waits h => exact ⟨rfl, rfl⟩
  | gone h => exact ⟨rfl, rfl⟩
  | uncounted h hready' _ => exact nomatch hready.symm.trans hready'
  | refused h hready' _ _ => exact nomatch hready.symm.trans hready'
  | relayed h hready' _ _ _ => exact nomatch hready.symm.trans hready'

/-- **What a call of the data centre's connection moves** behind the handshake. -/
theorem DcCall.movesFrom {env : DirectEnv W} {c c' : Conn (Conn W)} {res : ℤ}
    (h : DcCall env c c' res) (hdone : c.rpc.extraInt = 0) : MovesFrom c c' := by
  cases h with
  | greets h _ => exact absurd h (by omega)
  | rejected h _ => exact absurd h (by omega)
  | starts h _ => exact absurd h (by omega)
  | gone _ h => exact .of_same rfl rfl rfl rfl rfl rfl rfl
  | uncounted _ h hcount => exact .of_relay h (.refl _)
  | refused _ h hcount haccount => exact .of_same rfl rfl rfl rfl rfl rfl rfl
  | @relayed _ e h hcount w w' delay haccount hrate =>
    have hpause : MovesFrom (relayTo c e)
        (pauseDcFor env (relayTo (c.over (c.world.over w')) e) delay) := by
      cases delay <;> exact .of_same rfl rfl rfl rfl rfl rfl rfl
    exact .of_relay h hpause

theorem DcCall.res {env : DirectEnv W} {c c' : Conn (Conn W)} {res : ℤ}
    (h : DcCall env c c' res) : res = 0 ∨ res = NEED_MORE_BYTES := by
  cases h <;> simp

/-- What a call does to the client of a data centre's connection. -/
structure ClientKept (client client' : Conn W) : Prop where
  same : client' = { client with skipBytes := client'.skipBytes, world := client'.world }
  skipBytes : client'.skipBytes = client.skipBytes ∨ client'.skipBytes = 0

/-- An init is a matter of the two connections' ciphers and worlds. -/
theorem tcpDirectDcSendObfs2Init_spec (env : DirectEnv W) (c : Conn (Conn W)) :
    ClientKept c.world (tcpDirectDcSendObfs2Init env c).world ∧
      (tcpDirectDcSendObfs2Init env c).crypto.isSome = true ∧
      (tcpDirectDcSendObfs2Init env c).extra = c.extra ∧
      (tcpDirectDcSendObfs2Init env c).inp = c.inp ∧
      (tcpDirectDcSendObfs2Init env c).skipBytes = c.skipBytes ∧
      (tcpDirectDcSendObfs2Init env c).rpc = c.rpc ∧
      (tcpDirectDcSendObfs2Init env c).transportMode = c.transportMode := by
  unfold tcpDirectDcSendObfs2Init
  dsimp only
  split
  · exact ⟨⟨rfl, Or.inr rfl⟩, rfl, rfl, rfl, rfl, rfl, rfl⟩
  · exact ⟨⟨rfl, Or.inl rfl⟩, rfl, rfl, rfl, rfl, rfl, rfl⟩

/-- **A call of the data centre's connection leaves the client alone**, but for what it waits
for. -/
theorem DcCall.clientKept {env : DirectEnv W} {c c' : Conn (Conn W)} {res : ℤ}
    (h : DcCall env c c' res) : ClientKept c.world c'.world := by
  cases h with
  | greets h hsocks =>
    have hkeeps := (socks5HandleResponse_keeps env.socks5 c).world
    rw [hsocks] at hkeeps
    rw [show c'.world = c.world from hkeeps]
    exact ⟨rfl, Or.inl rfl⟩
  | @rejected h d hsocks =>
    have hkeeps := (socks5HandleResponse_keeps env.socks5 c).world
    rw [hsocks] at hkeeps
    rw [show (failConnection d (-1)).world = c.world from hkeeps]
    exact ⟨rfl, Or.inl rfl⟩
  | @starts h d hsocks =>
    have hkeeps := (socks5HandleResponse_keeps env.socks5 c).world
    rw [hsocks] at hkeeps
    rw [← show d.world = c.world from hkeeps]
    exact (tcpDirectDcSendObfs2Init_spec env d).1
  | gone _ h => exact ⟨rfl, Or.inl rfl⟩
  | uncounted _ h hcount => exact ⟨rfl, Or.inl rfl⟩
  | refused _ h hcount haccount => exact ⟨rfl, Or.inl rfl⟩
  | @relayed _ e h hcount w w' delay haccount hrate =>
    cases delay <;> exact ⟨rfl, Or.inl rfl⟩

/-- A call during the handshake ends in the handshake, in a failure, or in the init. -/
theorem DcCall.handshake {env : DirectEnv W} {c c' : Conn (Conn W)} {res : ℤ}
    (h : DcCall env c c' res) (hsocks : 0 < c.rpc.extraInt) :
    (∃ d, Socks5Keeps c d ∧ 0 < d.rpc.extraInt ∧
        (c' = d ∧ res = NEED_MORE_BYTES ∨ c' = failConnection d (-1) ∧ res = 0)) ∨
      ∃ total, c.rpc.extraInt = SOCKS5_CONNECT_SENT ∧ socks5ReplyLength c.inp = some total ∧
        total ≤ c.inp.length ∧
        c' = tcpDirectDcSendObfs2Init env ((c.skipData total).setExtraInt SOCKS5_NONE) ∧
        res = 0 := by
  cases h with
  | greets _ hres =>
    have hkeeps := socks5HandleResponse_keeps env.socks5 c
    have hpos := socks5HandleResponse_extraInt env.socks5 hsocks
    rw [hres] at hkeeps hpos
    exact Or.inl ⟨_, hkeeps, hpos.resolve_left (nomatch ·), Or.inl ⟨rfl, rfl⟩⟩
  | rejected _ hres =>
    have hkeeps := socks5HandleResponse_keeps env.socks5 c
    have hpos := socks5HandleResponse_extraInt env.socks5 hsocks
    rw [hres] at hkeeps hpos
    exact Or.inl ⟨_, hkeeps, hpos.resolve_left (nomatch ·), Or.inr ⟨rfl, rfl⟩⟩
  | starts _ hres =>
    obtain ⟨hconnect, total, hlen, hle, heq⟩ := socks5HandleResponse_complete env.socks5 hres
    exact Or.inr ⟨total, hconnect, hlen, hle, by rw [heq], rfl⟩
  | gone hdone _ => omega
  | uncounted hdone _ _ => omega
  | refused hdone _ _ _ => omega
  | relayed hdone _ _ _ _ => omega

theorem DcCall.skipBytes {env : DirectEnv W} {c c' : Conn (Conn W)} {res : ℤ}
    (h : DcCall env c c' res) : c'.skipBytes = c.skipBytes := by
  rcases Nat.eq_zero_or_pos c.rpc.extraInt with hdone | hsocks
  · exact (h.movesFrom hdone).skipBytes
  · rcases h.handshake hsocks with
      ⟨d, hkeeps, -, ⟨rfl, -⟩ | ⟨rfl, -⟩⟩ | ⟨total, -, -, -, rfl, -⟩
    · exact hkeeps.skipBytes
    · exact hkeeps.skipBytes
    · exact (tcpDirectDcSendObfs2Init_spec env _).2.2.2.2.1

end Server
end Teleproto3
