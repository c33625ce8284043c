/-
# Packets out of the decrypted stream

Behind the handshake the decrypted bytes of a client are a concatenation of packets, compact,
medium or padded, which the packet loop of `tcp_rpcs_compact_parse_execute` cuts apart however
the bytes arrive.

Before it looks at a packet the loop asks for eight bytes more than the shortest length takes
(`minLen c + 8`).  A whole packet that is shorter than that, with nothing behind it, is left in
`in` until more bytes arrive (`shortPacket_waits`).  `packets_delivered` is the promise for the
reads that leave no such packet: what has been handed over are the packets whose last byte has
been received, in order and once each.
-/

import Teleproto3.Lib.Arrival
import Teleproto3.Server.ChunkDelivery
import Teleproto3.Server.PacketLoop

namespace Teleproto3
namespace Server

open Lib

/-! ### Packets -/

/-- The three framings of packets. -/
inductive PacketMode
  | compact
  | medium
  | padded
  deriving DecidableEq, Repr

/-- The flags a framing goes with. -/
structure PacketMode.Of (mode : PacketMode) (flags : RpcFlags) : Prop where
  medium : flags.medium = decide (mode ≠ .compact)
  pad : flags.pad = decide (mode = .padded)

/-- A well-formed packet. -/
structure WirePacket (mode : PacketMode) where
  payload : Bytes
  padding : Bytes
  quickack : Bool
  payload_pos : 0 < payload.length
  payload_dvd : payload.length % 4 = 0
  payload_le : payload.length ≤ MAX_POST_SIZE
  padding_le : padding.length ≤ if mode = .padded then 3 else 0

namespace WirePacket

variable {mode : PacketMode} (p : WirePacket mode)

/-- The length on the wire, with the padding. -/
def length : ℕ := p.payload.length + p.padding.length

/-- Whether the length of a compact packet takes one byte. -/
def IsShort : Prop := mode = .compact ∧ p.payload.length / 4 < 0x7F

instance : Decidable p.IsShort := by
  unfold IsShort
  infer_instance

/-- The length in front of a packet, with the bit that asks for a quick acknowledgement. -/
def header : Bytes :=
  if mode = .compact then
    if p.payload.length / 4 < 0x7F then
      [UInt8.ofNat (p.payload.length / 4 + if p.quickack then 2 ^ 7 else 0)]
    else le32 (0x7F + (if p.quickack then 2 ^ 7 else 0) + 2 ^ 8 * (p.payload.length / 4))
  else le32 (p.length + if p.quickack then 2 ^ 31 else 0)

/-- The bytes of a packet. -/
def encode : Bytes := p.header ++ (p.payload ++ p.padding)

/-- The number of bytes of a packet. -/
def size : ℕ := p.encode.length

theorem length_bounds : 4 ≤ p.length ∧ p.length ≤ MAX_POST_SIZE + 3 := by
  have hpos := p.payload_pos
  have hdvd := p.payload_dvd
  have hle := p.payload_le
  have hpad := p.padding_le
  unfold length
  split_ifs at hpad <;> omega

theorem padding_eq_nil (h : mode ≠ .padded) : p.padding = [] := by
  have hpad := p.padding_le
  rw [if_neg h] at hpad
  exact List.length_eq_zero_iff.mp (Nat.le_zero.mp hpad)

/-- How long a header is. -/
theorem header_length : p.header.length = if p.IsShort then 1 else 4 := by
  unfold header IsShort
  split_ifs <;> simp_all

theorem size_eq : p.size = p.length + if p.IsShort then 1 else 4 := by
  rw [size, encode, List.length_append, header_length, List.length_append, length, Nat.add_comm]

end WirePacket

/-! ### Reading a length -/

/-- Only the first four bytes count. -/
theorem readLe32_take {bs cs : Bytes} (h : bs.take 4 = cs.take 4) (hlen : 4 ≤ bs.length) :
    readLe32 bs = readLe32 cs := by
  match bs, cs, h, hlen with
  | b₀ :: b₁ :: b₂ :: b₃ :: _, c₀ :: c₁ :: c₂ :: c₃ :: _, h, _ =>
    obtain ⟨rfl, rfl, rfl, rfl, -⟩ : b₀ = c₀ ∧ b₁ = c₁ ∧ b₂ = c₂ ∧ b₃ = c₃ ∧ True := by
      simpa using h
    rfl
  | _ :: _ :: _ :: _ :: _, [], h, _ => simp at h
  | _ :: _ :: _ :: _ :: _, [_], h, _ => simp at h
  | _ :: _ :: _ :: _ :: _, [_, _], h, _ => simp at h
  | _ :: _ :: _ :: _ :: _, [_, _, _], h, _ => simp at h

/-- The first byte is the low one. -/
theorem readLe32_cons (b : UInt8) (rest : Bytes) (h : 3 ≤ rest.length) :
    ∃ n, readLe32 (b :: rest) = b.toNat + 2 ^ 8 * n := by
  match rest, h with
  | b₁ :: b₂ :: b₃ :: _, _ =>
    exact ⟨b₁.toNat + 2 ^ 8 * b₂.toNat + 2 ^ 16 * b₃.toNat, by simp only [readLe32]; omega⟩

namespace WirePacket

variable {mode : PacketMode} (p : WirePacket mode) {flags : RpcFlags}

/-- **The length of a packet is read back**, whatever stands behind it. -/
theorem read_length (hflags : mode.Of flags) (rest : Bytes) :
    packetLength flags (readLe32 (p.encode ++ rest)) =
        some (p.length, if p.IsShort then 1 else 4) ∧
      ¬ (flags.medium ∧ 2 ^ 32 - 1000 < readLe32 (p.encode ++ rest)) := by
  have hbounds := p.length_bounds
  have hmax : MAX_POST_SIZE = 1044480 := rfl
  have hle := p.payload_le
  have hdvd := p.payload_dvd
  have hmed := hflags.medium
  by_cases hmode : mode = .compact
  · have hflag : flags.medium = false := by
      rw [hmed, hmode]
      rfl
    have hpad : p.padding = [] := p.padding_eq_nil (by rw [hmode]; exact PacketMode.noConfusion)
    have hlen : p.length = p.payload.length / 4 * 4 := by
      rw [length, hpad, List.length_nil]
      omega
    refine ⟨?_, fun h => nomatch hflag.symm.trans h.1⟩
    by_cases hshort : p.payload.length / 4 < 0x7F
    · have hbyte : p.encode ++ rest =
          UInt8.ofNat (p.payload.length / 4 + if p.quickack then 2 ^ 7 else 0) ::
            (p.payload ++ p.padding ++ rest) := by
        rw [encode, header, if_pos hmode, if_pos hshort]
        rfl
      obtain ⟨n, hn⟩ := readLe32_cons
        (UInt8.ofNat (p.payload.length / 4 + if p.quickack then 2 ^ 7 else 0))
        (p.payload ++ p.padding ++ rest) (by
          have := p.payload_pos
          simp only [List.length_append]
          omega)
      have hmod : readLe32 (p.encode ++ rest) % 2 ^ 7 = p.payload.length / 4 := by
        rw [hbyte, hn, UInt8.toNat_ofNat']
        split_ifs <;> omega
      rw [packetLength, hflag, if_neg Bool.false_ne_true, hmod, if_neg (by omega), hlen,
        if_pos ⟨hmode, hshort⟩]
    · have hread : readLe32 (p.encode ++ rest) =
          0x7F + (if p.quickack then 2 ^ 7 else 0) + 2 ^ 8 * (p.payload.length / 4) := by
        rw [encode, header, if_pos hmode, if_neg hshort, List.append_assoc]
        exact readLe32_le32_append _ (by split_ifs <;> omega) _
      have hmod : readLe32 (p.encode ++ rest) % 2 ^ 7 = 0x7F := by
        rw [hread]
        split_ifs <;> omega
      have hdiv : readLe32 (p.encode ++ rest) / 2 ^ 8 = p.payload.length / 4 := by
        rw [hread]
        split_ifs <;> omega
      rw [packetLength, hflag, if_neg Bool.false_ne_true, if_pos hmod, hdiv, if_neg hshort, hlen,
        if_neg fun h => hshort h.2]
  · have hflag : flags.medium = true := by
      rw [hmed, decide_eq_true hmode]
    have hread : readLe32 (p.encode ++ rest) = p.length + if p.quickack then 2 ^ 31 else 0 := by
      rw [encode, header, if_neg hmode, List.append_assoc]
      exact readLe32_le32_append _ (by split_ifs <;> omega) _
    rw [hread, packetLength, hflag, if_pos rfl, if_neg fun h : p.IsShort => hmode h.1]
    constructor
    · rw [show (p.length + if p.quickack then 2 ^ 31 else 0) % 2 ^ 31 = p.length by
        split_ifs <;> omega]
    · rintro ⟨-, h⟩
      split_ifs at h <;> omega

/-- The length of a packet within the limit is accepted. -/
theorem good_length (hflags : mode.Of flags) (hlimit : p.length ≤ MAX_POST_SIZE) :
    ¬ BadPacketLength flags p.length := by
  have hbounds := p.length_bounds
  have hmax : MAX_POST_SIZE = 1044480 := rfl
  rintro (h | h | ⟨hpad, h⟩ | h)
  · omega
  · omega
  · have hmode : mode ≠ .padded := by
      rw [hflags.pad] at hpad
      exact of_decide_eq_false hpad
    rw [length, p.padding_eq_nil hmode] at h
    exact h p.payload_dvd
  · omega

/-- The padding is cut off. -/
theorem packetMsg_eq (hflags : mode.Of flags) :
    packetMsg flags p.length (p.payload ++ p.padding) = p.payload := by
  have hpad := p.padding_le
  have hdvd := p.payload_dvd
  unfold packetMsg
  split_ifs with hflag
  · rw [show p.length / 4 * 4 = p.payload.length by
      unfold length
      split_ifs at hpad <;> omega]
    exact List.take_left
  · have hmode : mode ≠ .padded := by
      rw [hflags.pad] at hflag
      exact fun h => hflag (decide_eq_true h)
    rw [p.padding_eq_nil hmode, List.append_nil]

end WirePacket

/-! ### One turn -/

variable {W : Type*}

/-- The payload of a packet that has been handed over. -/
def StageEvent.packet? : StageEvent → Option Bytes
  | .packet payload => some payload
  | _ => none

/-- The payloads that have been handed over. -/
def handed (c : Conn W) : List Bytes := c.log.filterMap StageEvent.packet?

/-- What a connection holds besides `in`. -/
def Conn.backlog (c : Conn W) : ℕ := c.inU.length + c.out.length + c.outP.length

/-- **A session that receives packets**, `k` of which have been taken. -/
structure Receiving (mode : PacketMode) (k : ℕ) (c : Conn W) : Prop where
  type : c.type = .rpcExtServer ∨ c.type = .rpcExtServerDrs
  crypto : c.crypto.isSome
  wsState : c.wsState ≠ .handshake
  flags : mode.Of c.rpc.flags
  inPacketNum : c.rpc.inPacketNum = wrap32 k
  count : k ≤ 2 ^ 31
  cError : c.cError = false
  cFailed : c.cFailed = false
  cNetFailed : c.cNetFailed = false
  cStopRead : c.cStopRead = false
  cStopParse : c.cStopParse = false
  status : c.status ≠ .error

/-- What taking packets leaves alone. -/
structure SameBuffers (c c' : Conn W) : Prop where
  inU : c'.inU = c.inU
  out : c'.out = c.out
  outP : c'.outP = c.outP

theorem SameBuffers.refl (c : Conn W) : SameBuffers c c := ⟨rfl, rfl, rfl⟩

theorem SameBuffers.trans {a b c : Conn W} (h : SameBuffers a b) (h' : SameBuffers b c) :
    SameBuffers a c :=
  ⟨h'.inU.trans h.inU, h'.out.trans h.out, h'.outP.trans h.outP⟩

theorem SameBuffers.backlog {c c' : Conn W} (h : SameBuffers c c') : c'.backlog = c.backlog := by
  rw [Conn.backlog, h.inU, h.out, h.outP, Conn.backlog]

/-- A connection without a timer. -/
def Conn.untimed (c : Conn W) : Conn W := { c with timer := none }

/-- A connection behind a packet of `n` bytes that has been handed over. -/
def Conn.took (c : Conn W) (n : ℕ) (payload : Bytes) (num : ℤ) (outQueue : List Bytes)
    (world : W) : Conn W :=
  { c with
    inp := c.inp.drop n
    log := c.log ++ [.packet payload]
    rpc := { c.rpc with inPacketNum := num }
    outQueue := outQueue
    world := world }

theorem Conn.took_rpc (c : Conn W) (n : ℕ) (payload : Bytes) (num : ℤ) (outQueue : List Bytes)
    (world : W) :
    (c.took n payload num outQueue world).rpc = { c.rpc with inPacketNum := num } := rfl

/-- The tests of the number of bytes at hand are passed. -/
theorem parseLength_of_le {c : Conn W} (h : minLen c + 8 ≤ c.inp.length) :
    parseLength c = .ok c := by
  unfold parseLength
  rw [if_neg (by omega), if_neg (by omega), if_neg (by omega)]

theorem parseLength_of_lt {c : Conn W} (h0 : c.inp ≠ []) (h : c.inp.length < minLen c + 8) :
    parseLength c = .error (.ret c (minLen c + 8 - c.inp.length)) := by
  have hpos := List.length_pos_iff.mpr h0
  unfold parseLength
  rw [if_neg (by omega), if_pos h]

theorem parseLength_of_nil {c : Conn W} (h : c.inp = []) :
    parseLength c = .error (.ret c NEED_MORE_BYTES) := by
  unfold parseLength
  rw [if_pos (by rw [h]; rfl)]

/-- The shortest look-ahead of a framing. -/
def PacketMode.lookAhead : PacketMode → ℕ
  | .compact => 9
  | _ => 12

theorem PacketMode.Of.lookAhead_eq {mode : PacketMode} {c : Conn W} (h : mode.Of c.rpc.flags) :
    minLen c + 8 = mode.lookAhead := by
  rw [minLen, h.medium]
  cases mode <;> rfl

namespace Receiving

variable {mode : PacketMode} {k : ℕ} {c : Conn W} (env : ExtServerEnv W)

theorem inPacketNum_eq (h : Receiving mode k c) (hk : k < 2 ^ 31) : c.rpc.inPacketNum = k := by
  rw [h.inPacketNum]
  exact wrap32_of_fits (by omega) (by omega)

theorem authenticated (h : Receiving mode k c) : Authenticated c := by
  refine ⟨h.type, h.crypto, h.wsState, ?_⟩
  rcases Nat.lt_or_eq_of_le h.count with hk | rfl
  · left
    rw [h.inPacketNum_eq hk]
    omega
  · right
    rw [h.inPacketNum]
    rfl

theorem live (h : Receiving mode k c) : ¬ (c.cError ∨ c.cStopParse) := by
  rw [h.cError, h.cStopParse]
  exact fun h => h.elim Bool.noConfusion Bool.noConfusion

theorem untimed (h : Receiving mode k c) : Receiving mode k c.untimed :=
  ⟨h.type, h.crypto, h.wsState, h.flags, h.inPacketNum, h.count, h.cError, h.cFailed, h.cNetFailed,
    h.cStopRead, h.cStopParse, h.status⟩

theorem took (h : Receiving mode k c) {q : Bool} (hk : k + 1 ≤ 2 ^ 31) (n : ℕ) (payload : Bytes)
    (outQueue : List Bytes) (world : W) :
    Receiving mode (k + 1)
      ((c.setQuickack q).took n payload (wrap32 (k + 1)) outQueue world) := by
  have hcast : (k : ℤ) + 1 = (k + 1 : ℕ) := (Nat.cast_succ k).symm
  rw [hcast]
  exact ⟨h.type, h.crypto, h.wsState, ⟨h.flags.medium, h.flags.pad⟩, by rw [Conn.took_rpc], hk,
    h.cError, h.cFailed, h.cNetFailed, h.cStopRead, h.cStopParse, h.status⟩

/-- A turn on a session, up to the packet. -/
theorem parseStages_eq (h : Receiving mode k c) :
    parseStages env c = (parseLength c.untimed).bind (parsePacket env) := by
  have hauth := h.authenticated
  have hnum : c.rpc.inPacketNum ≠ -3 := by
    have := hauth.inPacketNum
    omega
  have hflags : parseFlags c = .ok c.untimed := by
    rw [parseFlags, if_pos hnum]
    exact if_neg h.live
  rw [parseStages_of_authenticated env hauth, parseSession, hflags]
  show (parseLength c.untimed).bind _ = _
  cases hlength : parseLength c.untimed with
  | error exit => rfl
  | ok d =>
    have hd : d = c.untimed := by
      unfold parseLength at hlength
      split_ifs at hlength
      exact (Except.ok.inj hlength).symm
    show (if d.rpc.inPacketNum = -3 then handshake env d else parsePacket env d) = _
    rw [if_neg (by rw [hd]; exact hnum)]
    rfl

/-- **A handler that accepts**: a ping, or any other packet with room for it. -/
theorem executePacket_accepts {d : Conn W} {msg : Bytes} (hlen : msg.length ≤ MAX_POST_SIZE)
    (h : readLe32 msg = RPC_PING ∨ d.inp.length + d.backlog ≤ MAX_CONNECTION_BUFFER_SPACE) :
    ∃ outQueue world, executePacket env d msg =
      { d.record (.packet msg) with outQueue := outQueue, world := world } := by
  unfold executePacket
  dsimp only
  by_cases hping : readLe32 msg = RPC_PING
  · rw [if_pos hping]
    unfold tcpRpcsDefaultExecute
    split_ifs
    · exact ⟨_, d.world, rfl⟩
    · exact ⟨d.outQueue, d.world, rfl⟩
  · rw [if_neg hping]
    have hroom := h.resolve_left hping
    have hmax : MAX_CONNECTION_BUFFER_SPACE = 2 ^ 25 := rfl
    have hsum : wrap32 ((d.record (.packet msg)).inp.length + (d.record (.packet msg)).inU.length +
        (d.record (.packet msg)).out.length + (d.record (.packet msg)).outP.length) =
        ((d.inp.length + d.backlog : ℕ) : ℤ) := by
      show wrap32 (d.inp.length + d.inU.length + d.out.length + d.outP.length) = _
      unfold Conn.backlog at hroom ⊢
      rw [wrap32_of_fits (by omega) (by omega)]
      push_cast
      omega
    unfold extRpcsExecute
    rw [if_neg (not_lt.mpr hlen), hsum, if_neg (by omega)]
    exact ⟨d.outQueue, _, rfl⟩

/-- The packet loop on a packet that is there. -/
theorem parsePacket_take (h : Receiving mode k c) (p : WirePacket mode) (more : Bytes)
    (hinp : c.inp = p.encode ++ more) (hk : k < 2 ^ 31) (hlimit : p.length ≤ MAX_POST_SIZE)
    (hroom : readLe32 p.payload = RPC_PING ∨
      more.length + c.backlog ≤ MAX_CONNECTION_BUFFER_SPACE) :
    ∃ c', parsePacket env c = .ok c' ∧ c'.inp = more ∧ Receiving mode (k + 1) c' ∧
      SameBuffers c c' ∧ handed c' = handed c ++ [p.payload] := by
  obtain ⟨hread, herr⟩ := p.read_length h.flags more
  have hsize := p.size_eq
  have hlen : c.inp.length = p.size + more.length := by
    rw [hinp, List.length_append]
    rfl
  have hgood := p.good_length h.flags hlimit
  generalize hbytes : (if p.IsShort then 1 else 4) = lenBytes at hread hsize
  have hheader : p.header.length = lenBytes := by rw [p.header_length, hbytes]
  have hmsg : packetMsg c.rpc.flags p.length ((c.inp.drop lenBytes).take p.length) = p.payload := by
    have hdrop : (c.inp.drop lenBytes).take p.length = p.payload ++ p.padding := by
      rw [hinp, WirePacket.encode, List.append_assoc, ← hheader, List.drop_left]
      exact List.take_left' (by rw [List.length_append]; rfl)
    rw [hdrop, p.packetMsg_eq h.flags]
  have hmore : c.inp.drop (lenBytes + p.length) = more := by
    rw [hinp, Nat.add_comm, ← hsize]
    exact List.drop_left
  have hnum : c.rpc.inPacketNum = k := h.inPacketNum_eq hk
  generalize hd : c.setQuickack (packetQuickack c.rpc.flags (readLe32 c.inp)) = d
  have hdinp : d.inp = c.inp := by rw [← hd]; rfl
  have hdrop : ((d.skipData (lenBytes + p.length)).setInPacketNum k).inp = more := by
    rw [← hmore, ← hdinp]
    rfl
  have hpacket : parsePacket env c = takePacket env p.length lenBytes d := by
    unfold parsePacket
    dsimp only
    rw [if_neg (by rw [hinp]; exact herr), hd]
    have hdlength : packetLength d.rpc.flags (readLe32 c.inp) = some (p.length, lenBytes) := by
      rw [hinp, ← hread, ← hd]
      rfl
    have hdgood : ¬ BadPacketLength d.rpc.flags p.length := by
      rw [← hd]
      exact hgood
    rw [hdlength]
    dsimp only
    rw [if_neg hdgood, if_neg (by rw [hdinp]; omega)]
  have hdmsg : packetMsg d.rpc.flags p.length ((d.inp.drop lenBytes).take p.length) = p.payload := by
    rw [hdinp, ← hmsg, ← hd]
    rfl
  have hdnum : d.rpc.inPacketNum = k := by rw [← hnum, ← hd]; rfl
  obtain ⟨outQueue, world, hexec⟩ := executePacket_accepts env
    (d := (d.skipData (lenBytes + p.length)).setInPacketNum k) p.payload_le (by
      refine hroom.imp_right fun hroom => ?_
      rw [hdrop, ← hd]
      exact hroom)
  have htake : takePacket env p.length lenBytes d =
      .ok (d.took (lenBytes + p.length) p.payload (wrap32 (k + 1)) outQueue world) := by
    have hfour := p.payload_dvd
    have hpos := p.payload_pos
    unfold takePacket
    rw [if_neg (by rw [hdinp]; omega)]
    dsimp only
    rw [hdmsg, hdnum, if_neg (by omega), if_neg (by omega), if_neg (by omega), hexec]
    rfl
  refine ⟨_, hpacket.trans htake, hdrop, ?_⟩
  subst hd
  refine ⟨h.took (Nat.succ_le_of_lt hk) _ _ _ _, ⟨rfl, rfl, rfl⟩, ?_⟩
  show (c.log ++ [StageEvent.packet p.payload]).filterMap StageEvent.packet? = _
  rw [List.filterMap_append]
  rfl

/-- **A packet that is there is taken.** -/
theorem take (h : Receiving mode k c) (p : WirePacket mode) {more : Bytes}
    (hinp : c.inp = p.encode ++ more) (hk : k < 2 ^ 31) (hahead : mode.lookAhead ≤ c.inp.length)
    (hlimit : p.length ≤ MAX_POST_SIZE)
    (hroom : readLe32 p.payload = RPC_PING ∨
      more.length + c.backlog ≤ MAX_CONNECTION_BUFFER_SPACE) :
    ∃ c', parseStages env c = .ok c' ∧ c'.inp = more ∧ Receiving mode (k + 1) c' ∧
      SameBuffers c c' ∧ handed c' = handed c ++ [p.payload] := by
  have hlook : minLen c.untimed + 8 ≤ c.untimed.inp.length := by
    rw [h.untimed.flags.lookAhead_eq]
    exact hahead
  obtain ⟨c', hpacket, hmore, hc', hsame, hhanded⟩ :=
    h.untimed.parsePacket_take env p more hinp hk hlimit hroom
  refine ⟨c', ?_, hmore, hc', ⟨hsame.inU, hsame.out, hsame.outP⟩, hhanded⟩
  rw [h.parseStages_eq env, parseLength_of_le hlook]
  exact hpacket

/-- **A part of a packet is waited for**, as far as the loop looks ahead. -/
theorem wait_ahead (h : Receiving mode k c) (hne : c.inp ≠ [])
    (hshort : c.inp.length < mode.lookAhead) :
    parseStages env c = .error (.ret c.untimed (mode.lookAhead - c.inp.length)) := by
  have hlook : minLen c.untimed + 8 = mode.lookAhead := h.untimed.flags.lookAhead_eq
  have hlength := parseLength_of_lt (c := c.untimed) hne (by rw [hlook]; exact hshort)
  have hneed : ((minLen c.untimed : ℤ) + 8) = mode.lookAhead := by exact_mod_cast hlook
  rw [h.parseStages_eq env, hlength, hneed]
  rfl

/-- Nothing is waited for. -/
theorem wait_none (h : Receiving mode k c) (hinp : c.inp = []) :
    parseStages env c = .error (.ret c.untimed NEED_MORE_BYTES) := by
  rw [h.parseStages_eq env, parseLength_of_nil (c := c.untimed) hinp]
  rfl

/-- The packet loop on a part of a packet. -/
theorem parsePacket_wait (h : Receiving mode k c) (p : WirePacket mode) (hinp : c.inp <+: p.encode)
    (hfour : 4 ≤ c.inp.length) (hpart : c.inp.length < p.size) (hlimit : p.length ≤ MAX_POST_SIZE) :
    ∃ q, parsePacket env c = .error (.ret (c.setQuickack q) (p.size - c.inp.length)) := by
  obtain ⟨hread, herr⟩ := p.read_length h.flags []
  have hgood := p.good_length h.flags hlimit
  have hle : readLe32 c.inp = readLe32 (p.encode ++ []) := by
    obtain ⟨rest, hrest⟩ := hinp
    rw [List.append_nil, ← hrest]
    exact readLe32_take (by rw [List.take_append_of_le_length hfour]) hfour
  rw [← hle] at hread herr
  have hsize := p.size_eq
  generalize (if p.IsShort then 1 else 4) = lenBytes at hread hsize
  refine ⟨packetQuickack c.rpc.flags (readLe32 c.inp), ?_⟩
  generalize hd : c.setQuickack (packetQuickack c.rpc.flags (readLe32 c.inp)) = d
  have hdinp : d.inp = c.inp := by rw [← hd]; rfl
  have hdgood : ¬ BadPacketLength d.rpc.flags p.length := by
    rw [← hd]
    exact hgood
  have hdlength : packetLength d.rpc.flags (readLe32 c.inp) = some (p.length, lenBytes) := by
    rw [← hread, ← hd]
    rfl
  unfold parsePacket
  dsimp only
  rw [if_neg herr, hd, hdlength]
  dsimp only
  rw [if_neg hdgood, if_pos (by rw [hdinp]; omega), hdinp, hsize]
  push_cast
  rfl

/-- **A part of a packet is waited for.** -/
theorem wait_rest (h : Receiving mode k c) (p : WirePacket mode) (hinp : c.inp <+: p.encode)
    (hahead : mode.lookAhead ≤ c.inp.length) (hpart : c.inp.length < p.size)
    (hlimit : p.length ≤ MAX_POST_SIZE) :
    ∃ q, parseStages env c = .error (.ret (c.untimed.setQuickack q) (p.size - c.inp.length)) := by
  have hnine : 9 ≤ mode.lookAhead := by cases mode <;> decide
  have hlook : minLen c.untimed + 8 ≤ c.untimed.inp.length := by
    rw [h.untimed.flags.lookAhead_eq]
    exact hahead
  obtain ⟨q, hq⟩ := h.untimed.parsePacket_wait env p hinp (show 4 ≤ c.inp.length by omega) hpart
    hlimit
  refine ⟨q, ?_⟩
  rw [h.parseStages_eq env, parseLength_of_le hlook]
  exact hq

end Receiving

/-! ### One call -/

/-- A whole packet is taken: `n` bytes are there from its first one on, `k` packets have been
taken before, and `backlog` is what the connection holds besides `in`. -/
structure PacketServed {mode : PacketMode} (backlog k n : ℕ) (p : WirePacket mode) : Prop where
  ahead : mode.lookAhead ≤ n
  count : k < 2 ^ 31
  room : readLe32 p.payload = RPC_PING ∨ n - p.size + backlog ≤ MAX_CONNECTION_BUFFER_SPACE

/-- Every packet that is there as a whole is taken. -/
def EachServed {mode : PacketMode} (backlog : ℕ) : ℕ → List (WirePacket mode) → ℕ → Prop
  | _, [], _ => True
  | k, p :: ps, n =>
    p.size ≤ n → PacketServed backlog k n p ∧ EachServed backlog (k + 1) ps (n - p.size)

/-- How many bytes must be there before the loop looks again. -/
def waitsFor {mode : PacketMode} : List (WirePacket mode) → ℕ → ℕ
  | [], _ => 0
  | p :: _, n => if n = 0 then 0 else if n < mode.lookAhead then mode.lookAhead else p.size

/-- The bytes of packets, one after another. -/
def packetBytes {mode : PacketMode} (ps : List (WirePacket mode)) : Bytes :=
  ps.flatMap WirePacket.encode

/-- What a call makes of `n` bytes of `ps`. -/
structure PacketsParsed {mode : PacketMode} (ps : List (WirePacket mode)) (n k : ℕ)
    (c c' : Conn W) : Prop where
  receiving : Receiving mode (k + (arrived WirePacket.size ps n).length) c'
  inp : c'.inp = (packetBytes (awaited WirePacket.size ps n).1).take (awaited WirePacket.size ps n).2
  same : SameBuffers c c'
  handed : handed c' = handed c ++ (arrived WirePacket.size ps n).map WirePacket.payload

/-- What a call returns: nothing is waited for, or that many bytes more. -/
def AsksFor (need n : ℕ) (res : ℤ) : Prop :=
  need = 0 ∧ res = NEED_MORE_BYTES ∨ n < need ∧ res = need - n

/-- **One call takes the packets that are there**, and asks for what the next one lacks. -/
theorem tcpRpcsCompactParseExecute_packets (env : ExtServerEnv W) {mode : PacketMode}
    {ps : List (WirePacket mode)} {k n : ℕ} {c : Conn W} (h : Receiving mode k c)
    (hinp : c.inp = (packetBytes ps).take n) (hn : n ≤ (packetBytes ps).length)
    (hlimit : ∀ p ∈ ps, p.length ≤ MAX_POST_SIZE) (hserved : EachServed c.backlog k ps n) :
    ∃ c' res, tcpRpcsCompactParseExecute env c = .ok (c', res) ∧ PacketsParsed ps n k c c' ∧
      AsksFor (waitsFor (awaited WirePacket.size ps n).1 (awaited WirePacket.size ps n).2)
        c'.inp.length res := by
  induction ps generalizing k n c with
  | nil =>
    have hnil : c.inp = [] := by
      rw [hinp]
      exact List.take_nil
    refine ⟨c.untimed, NEED_MORE_BYTES, tcpRpcsCompactParseExecute_of_error env
      (h.wait_none env hnil), ⟨h.untimed, ?_, ⟨rfl, rfl, rfl⟩, ?_⟩, Or.inl ⟨rfl, rfl⟩⟩
    · exact hinp
    · exact (List.append_nil _).symm
  | cons p ps ih =>
    have hcons : packetBytes (p :: ps) = p.encode ++ packetBytes ps := List.flatMap_cons
    have hlength : (packetBytes (p :: ps)).length = p.size + (packetBytes ps).length := by
      rw [hcons, List.length_append]
      rfl
    rcases le_or_gt p.size n with hle | hlt
    · obtain ⟨hp, hps⟩ := hserved hle
      have hmore : c.inp = p.encode ++ (packetBytes ps).take (n - p.size) := by
        rw [hinp, hcons, List.take_append, List.take_of_length_le hle]
        rfl
      have hlen : c.inp.length = n := by
        rw [hinp, List.length_take, min_eq_left hn]
      have htake : ((packetBytes ps).take (n - p.size)).length = n - p.size := by
        rw [List.length_take, min_eq_left (by omega)]
      obtain ⟨d, hturn, hdinp, hd, hsame, hhanded⟩ := h.take env p hmore hp.count
        (by rw [hlen]; exact hp.ahead) (hlimit p List.mem_cons_self) (by rw [htake]; exact hp.room)
      obtain ⟨c', res, hcall, hparsed, hasks⟩ := ih hd hdinp (by omega)
        (fun q hq => hlimit q (List.mem_cons_of_mem p hq)) (by rw [hsame.backlog]; exact hps)
      rw [awaited_of_le hle]
      refine ⟨c', res, (tcpRpcsCompactParseExecute_of_ok env hturn).trans hcall, ⟨?_, ?_,
        hsame.trans hparsed.same, ?_⟩, hasks⟩
      · rw [arrived_of_le hle, List.length_cons, Nat.add_comm _ 1, ← Nat.add_assoc]
        exact hparsed.receiving
      · rw [awaited_of_le hle]
        exact hparsed.inp
      · rw [arrived_of_le hle, hparsed.handed, hhanded, List.append_assoc]
        rfl
    · have hfront : c.inp = p.encode.take n := by
        rw [hinp, hcons]
        exact List.take_append_of_le_length hlt.le
      have hlen : c.inp.length = n := by
        rw [hfront, List.length_take]
        exact min_eq_left hlt.le
      -- Nothing is taken: what is left to say is what the call asks for.
      have hparsed (d : Conn W) (hd : Receiving mode k d) (hsame : SameBuffers c d)
          (hdinp : d.inp = c.inp) (hlog : handed d = handed c) : PacketsParsed (p :: ps) n k c d := by
        refine ⟨?_, ?_, hsame, ?_⟩
        · rw [arrived_of_lt hlt]
          exact hd
        · rw [awaited_of_lt hlt, hdinp, hinp]
        · rw [arrived_of_lt hlt, hlog]
          exact (List.append_nil _).symm
      rw [awaited_of_lt hlt]
      rcases Nat.eq_zero_or_pos n with rfl | hpos
      · refine ⟨c.untimed, NEED_MORE_BYTES, tcpRpcsCompactParseExecute_of_error env
          (h.wait_none env (List.length_eq_zero_iff.mp hlen)), hparsed _ h.untimed
          ⟨rfl, rfl, rfl⟩ rfl rfl, Or.inl ⟨rfl, rfl⟩⟩
      · rcases Nat.lt_or_ge n mode.lookAhead with hshort | hlong
        · have hwait := h.wait_ahead env (List.length_pos_iff.mp (by omega)) (by omega)
          refine ⟨_, _, tcpRpcsCompactParseExecute_of_error env hwait, hparsed _ h.untimed
            ⟨rfl, rfl, rfl⟩ rfl rfl, Or.inr ?_⟩
          rw [waitsFor, if_neg hpos.ne', if_pos hshort, show c.untimed.inp = c.inp from rfl, hlen]
          exact ⟨hshort, rfl⟩
        · obtain ⟨q, hwait⟩ := h.wait_rest env p (by rw [hfront]; exact List.take_prefix _ _)
            (by omega) (by omega) (hlimit p List.mem_cons_self)
          refine ⟨_, _, tcpRpcsCompactParseExecute_of_error env hwait, hparsed _ ?_
            ⟨rfl, rfl, rfl⟩ rfl rfl, Or.inr ?_⟩
          · exact ⟨h.type, h.crypto, h.wsState, ⟨h.flags.medium, h.flags.pad⟩, h.inPacketNum,
              h.count, h.cError, h.cFailed, h.cNetFailed, h.cStopRead, h.cStopParse, h.status⟩
          · rw [waitsFor, if_neg hpos.ne', if_neg (by omega),
              show (c.untimed.setQuickack q).inp = c.inp from rfl, hlen]
            exact ⟨hlt, rfl⟩

/-! ### One read -/

theorem WirePacket.size_pos {mode : PacketMode} (p : WirePacket mode) : 0 < p.size := by
  have hsize := p.size_eq
  have hbounds := p.length_bounds
  omega

/-- Without a byte nothing is there as a whole. -/
theorem arrived_zero {mode : PacketMode} (ps : List (WirePacket mode)) :
    arrived WirePacket.size ps 0 = [] ∧ awaited WirePacket.size ps 0 = (ps, 0) := by
  cases ps with
  | nil => exact ⟨rfl, rfl⟩
  | cons p ps => exact ⟨arrived_of_lt p.size_pos, awaited_of_lt p.size_pos⟩

theorem waitsFor_cons {mode : PacketMode} (p : WirePacket mode) (ps : List (WirePacket mode))
    (n : ℕ) : waitsFor (p :: ps) n =
      if n = 0 then 0 else if n < mode.lookAhead then mode.lookAhead else p.size := rfl

/-- What is waited for is no more than the longest packet. -/
theorem waitsFor_lt {mode : PacketMode} (ps : List (WirePacket mode)) (n : ℕ)
    (hlimit : ∀ p ∈ ps, p.length ≤ MAX_POST_SIZE) : waitsFor ps n < 2 ^ 31 - 1 := by
  cases ps with
  | nil => exact Nat.zero_lt_succ _
  | cons p ps =>
    have hp := hlimit p List.mem_cons_self
    have hmax : MAX_POST_SIZE = 1044480 := rfl
    have hahead : mode.lookAhead ≤ 12 := by cases mode <;> decide
    have hsize := p.size_eq
    rw [waitsFor_cons]
    split_ifs at hsize ⊢ <;> omega

/-- **While the bytes that are waited for are not there, no packet is.** -/
theorem awaited_of_waiting {mode : PacketMode} {ps : List (WirePacket mode)} {n m backlog k : ℕ}
    (hserved : EachServed backlog k ps m) (hnm : n ≤ m) (hm : m < waitsFor ps n) :
    arrived WirePacket.size ps m = [] ∧ awaited WirePacket.size ps m = (ps, m) ∧
      waitsFor ps m = waitsFor ps n := by
  cases ps with
  | nil => exact absurd hm (Nat.not_lt_zero m)
  | cons p ps =>
    rw [waitsFor_cons] at hm ⊢
    rw [waitsFor_cons]
    split_ifs at hm with h0 hshort
    · exact absurd hm (Nat.not_lt_zero m)
    · have hpart : m < p.size := by
        by_contra hwhole
        exact absurd (hserved (not_lt.mp hwhole)).1.ahead (by omega)
      refine ⟨arrived_of_lt hpart, awaited_of_lt hpart, ?_⟩
      rw [if_neg (by omega), if_pos hm, if_neg h0, if_pos hshort]
    · refine ⟨arrived_of_lt hm, awaited_of_lt hm, ?_⟩
      rw [if_neg (by omega), if_neg (by omega), if_neg h0, if_neg hshort]

variable {env : ExtServerEnv W} {mode : PacketMode}

/-- A session with another `skip_bytes`. -/
def Conn.setSkip (c : Conn W) (skip : ℤ) : Conn W := { c with skipBytes := skip }

theorem Receiving.setSkip {k : ℕ} {c : Conn W} (h : Receiving mode k c) (skip : ℤ) :
    Receiving mode k (c.setSkip skip) :=
  ⟨h.type, h.crypto, h.wsState, h.flags, h.inPacketNum, h.count, h.cError, h.cFailed, h.cNetFailed,
    h.cStopRead, h.cStopParse, h.status⟩

/-- The reader up to its skipping, with nothing to decrypt. -/
theorem readerFront_decoded {k : ℕ} {c : Conn W} (h : Receiving mode k c) :
    readerFront (decodedMethods env) c [] = readerSkip c := by
  have hfill : readerFill c [] = c := by
    rw [readerFill_crypto h.crypto]
    simp [Conn.pend]
  have hdecode : readerDecode (decodedMethods env) c = .ok c := by
    rw [readerDecode, if_pos h.crypto]
    rfl
  have hflags : readerFlags c = .ok c := by
    rw [readerFlags, h.cFailed, h.cError, h.cNetFailed, h.cStopRead, if_neg (by simp), if_neg (by simp)]
  rw [readerFront, hfill, hdecode, Except.bind, hflags]
  rfl

/-- A session parses with the loop above. -/
theorem Receiving.parseExecute {k : ℕ} {c : Conn W} (h : Receiving mode k c) :
    (decodedMethods env).parseExecute c = tcpRpcsCompactParseExecute env c := by
  show clientParseExecute env c = _
  unfold clientParseExecute
  rcases h.type with htype | htype <;> rw [htype]

/-- What a read makes of `n` bytes of `ps`. -/
structure PacketsRead (ps : List (WirePacket mode)) (n k : ℕ) (c c' : Conn W) : Prop
    extends PacketsParsed ps n k c c' where
  skipBytes : c'.skipBytes =
    waitsFor (awaited WirePacket.size ps n).1 (awaited WirePacket.size ps n).2

/-- The last loop of the reader, with nothing left to skip. -/
theorem readerTurn_packets (env : ExtServerEnv W) {ps : List (WirePacket mode)} {k n : ℕ} {c : Conn W}
    (h : Receiving mode k c) (hskip : c.skipBytes = 0) (hinp : c.inp = (packetBytes ps).take n)
    (hn : n ≤ (packetBytes ps).length) (hfits : n < 2 ^ 31)
    (hlimit : ∀ p ∈ ps, p.length ≤ MAX_POST_SIZE) (hserved : EachServed c.backlog k ps n) :
    ∃ r, readerTurn (decodedMethods env) (c, []) = .done (.ok r) ∧ PacketsRead ps n k c r.conn := by
  have hlen : c.inp.length = n := by
    rw [hinp, List.length_take, min_eq_left hn]
  have htotal : totalBytes c.inp = n := by
    rw [totalBytes_of_lt (by omega), hlen]
  rcases Nat.eq_zero_or_pos n with rfl | hpos
  · have hstops : ReaderStops c := .of_nil (List.length_eq_zero_iff.mp hlen)
    obtain ⟨harrived, hawaited⟩ := arrived_zero ps
    refine ⟨⟨c, 0, []⟩, readerTurn_of_stops hstops, ⟨⟨?_, ?_, .refl c, ?_⟩, ?_⟩⟩
    · rw [harrived]
      exact h
    · rw [hawaited]
      exact hinp
    · rw [harrived]
      exact (List.append_nil _).symm
    · rw [hawaited, hskip]
      cases ps <;> rfl
  · have hgoes : ¬ ReaderStops c := by
      unfold ReaderStops
      rw [hskip, h.cError, h.cFailed, h.cNetFailed, h.cStopRead, htotal]
      have := h.status
      simp_all
      omega
    obtain ⟨c', res, hcall, hparsed, hasks⟩ :=
      tcpRpcsCompactParseExecute_packets env h hinp hn hlimit hserved
    have hskip' : c'.skipBytes = 0 :=
      (tcpRpcsCompactParseExecute_frame env hcall).skipBytes.trans hskip
    have hle : c'.inp.length ≤ n := by
      rw [← hlen]
      have hframe := (tcpRpcsCompactParseExecute_frame env hcall).held_le
      have hinU := congrArg List.length hparsed.same.inU
      unfold held at hframe
      omega
    rw [← h.parseExecute] at hcall
    rcases hasks with ⟨hneed, rfl⟩ | ⟨hlt, rfl⟩
    · exact ⟨_, readerTurn_of_needMore hgoes hcall, hparsed, by rw [hneed]; exact hskip'⟩
    · generalize hneed : waitsFor (awaited WirePacket.size ps n).1
        (awaited WirePacket.size ps n).2 = need at hlt hcall
      have hbound : need < 2 ^ 31 - 1 := by
        rw [← hneed]
        exact waitsFor_lt _ _ fun p hp => hlimit p (mem_of_mem_awaited hp)
      refine ⟨_, readerTurn_of_skip hgoes hcall (by omega) (by unfold NEED_MORE_BYTES; omega),
        ⟨hparsed.receiving.setSkip _, hparsed.inp, ⟨hparsed.same.inU, hparsed.same.out,
          hparsed.same.outP⟩, hparsed.handed⟩, ?_⟩
      show skipAfter c' _ = _
      rw [hneed, skipAfter, if_pos hparsed.receiving.crypto, totalBytes_of_lt (by omega),
        if_neg (by omega), wrap32_of_fits (by omega) (by omega)]
      omega

/-- **One read takes the packets that are there.**  Before it `m` bytes of `ps` were there, and
the reader was waiting for what the first packet lacked. -/
theorem jobRun_packets (env : ExtServerEnv W) {ps : List (WirePacket mode)} {k m n : ℕ} {c : Conn W}
    (h : Receiving mode k c) (hskip : c.skipBytes = waitsFor ps m) (hmn : m ≤ n)
    (hinp : c.inp = (packetBytes ps).take n) (hn : n ≤ (packetBytes ps).length)
    (hfits : n < 2 ^ 31) (hlimit : ∀ p ∈ ps, p.length ≤ MAX_POST_SIZE)
    (hserved : EachServed c.backlog k ps n) (turns : ℕ) :
    ∃ r, jobRun (decodedMethods env) c [] (turns + 1) = .ok r ∧ PacketsRead ps n k c r.conn := by
  have hlen : c.inp.length = n := by
    rw [hinp, List.length_take, min_eq_left hn]
  have htotal : totalBytes c.inp = n := by
    rw [totalBytes_of_lt (by omega), hlen]
  have hgo {d : Conn W} (hd : readerSkip c = .ok d) (hdrecv : Receiving mode k d)
      (hdskip : d.skipBytes = 0) (hdinp : d.inp = c.inp) (hsame : SameBuffers c d)
      (hlog : handed d = handed c) :
      ∃ r, jobRun (decodedMethods env) c [] (turns + 1) = .ok r ∧
        PacketsRead ps n k c r.conn := by
    obtain ⟨r, hturn, hread⟩ := readerTurn_packets env hdrecv hdskip (hdinp.trans hinp) hn
      hfits hlimit (by rw [hsame.backlog]; exact hserved)
    refine ⟨r, ?_, ⟨hread.receiving, hread.inp, hsame.trans hread.same, ?_⟩, hread.skipBytes⟩
    · rw [jobRun_of_live h.cError]
      exact cpuTcpServerReader_of_done ((readerFront_decoded h).trans hd) hturn turns
    · rw [← hlog]
      exact hread.handed
  rcases Nat.eq_zero_or_pos (waitsFor ps m) with hnone | hwaits
  · rw [hnone] at hskip
    exact hgo (readerSkip_none hskip) h hskip rfl (.refl c) rfl
  · rcases Nat.lt_or_ge n (waitsFor ps m) with hlt | hge
    · -- Too little is there, and the reader goes on waiting.
      have hexit : readerSkip c = .error (.ok ⟨c, 0, []⟩) := by
        unfold readerSkip
        rw [htotal, hskip, if_neg (by omega), if_pos (by omega), if_neg (by omega)]
      obtain ⟨harrived, hawaited, hsame⟩ := awaited_of_waiting hserved hmn hlt
      refine ⟨⟨c, 0, []⟩, ?_, ⟨?_, ?_, .refl c, ?_⟩, ?_⟩
      · rw [jobRun_of_live h.cError, cpuTcpServerReader, readerFront_decoded h, hexit]
      · rw [harrived]
        exact h
      · rw [hawaited]
        exact hinp
      · rw [harrived]
        exact (List.append_nil _).symm
      · rw [hawaited, hsame]
        exact hskip
    · have hgoes : readerSkip c = .ok (c.setSkip 0) := by
        unfold readerSkip
        rw [htotal, hskip, if_neg (by omega), if_pos (by omega), if_pos (by omega)]
        rfl
      exact hgo hgoes (h.setSkip 0) rfl rfl ⟨rfl, rfl, rfl⟩ rfl

/-! ### Runs -/

/-- A session, how much of its stream it has received, and whether the process has ended. -/
structure PacketRun (W : Type*) where
  conn : Conn W
  received : ℕ
  fault : Bool

/-- A read: how much of the stream it brings at most, and how often the reader's last loop may
turn after its first turn. -/
structure StreamRead where
  length : ℕ
  turns : ℕ

/-- What a read brings. -/
def PacketRun.data (packets : List (WirePacket mode)) (s : PacketRun W) (e : StreamRead) : Bytes :=
  ((packetBytes packets).drop s.received).take e.length

/-- One read of the decrypted stream. -/
def packetStep (env : ExtServerEnv W) (packets : List (WirePacket mode)) (s : PacketRun W)
    (e : StreamRead) : PacketRun W :=
  if s.fault then s
  else
    match jobRun (decodedMethods env) (s.conn.deliver (s.data packets e)) [] (e.turns + 1) with
    | .error _ => { s with fault := true }
    | .ok r => { s with conn := r.conn, received := s.received + (s.data packets e).length }

/-- **A read that leaves no whole packet behind.**  What is there fits an `int`, and each packet
that is there as a whole comes with the bytes the loop looks ahead, finds the counter unspent
and finds room with its handler. -/
structure ReadServed (packets : List (WirePacket mode)) (s : PacketRun W) (e : StreamRead) :
    Prop where
  fits : s.conn.inp.length + (s.data packets e).length < 2 ^ 31
  served : EachServed s.conn.backlog (arrived WirePacket.size packets s.received).length
    (awaited WirePacket.size packets s.received).1
    ((awaited WirePacket.size packets s.received).2 + (s.data packets e).length)

/-- What has been handed over are the packets whose last byte has been received. -/
def PacketsHanded (packets : List (WirePacket mode)) (before : List Bytes) (s : PacketRun W) :
    Prop :=
  handed s.conn = before ++ (arrived WirePacket.size packets s.received).map WirePacket.payload

/-- A session behind its handshake, with nothing received. -/
structure SessionOpened (mode : PacketMode) (c : Conn W) : Prop extends Receiving mode 0 c where
  inp : c.inp = []
  skipBytes : c.skipBytes = 0

/-- The invariant of a run. -/
structure PacketsSound (packets : List (WirePacket mode)) (before : List Bytes)
    (s : PacketRun W) : Prop where
  received : s.received ≤ (packetBytes packets).length
  receiving : Receiving mode (arrived WirePacket.size packets s.received).length s.conn
  inp : s.conn.inp = (packetBytes (awaited WirePacket.size packets s.received).1).take
    (awaited WirePacket.size packets s.received).2
  skipBytes : s.conn.skipBytes = waitsFor (awaited WirePacket.size packets s.received).1
    (awaited WirePacket.size packets s.received).2
  handed : PacketsHanded packets before s

namespace PacketsSound

variable {packets : List (WirePacket mode)} {before : List Bytes} {s : PacketRun W}

theorem start {c : Conn W} (h : SessionOpened mode c) :
    PacketsSound packets (Server.handed c) ⟨c, 0, false⟩ := by
  obtain ⟨harrived, hawaited⟩ := arrived_zero packets
  refine ⟨Nat.zero_le _, ?_, ?_, ?_, ?_⟩
  · rw [harrived]
    exact h.toReceiving
  · rw [hawaited]
    exact h.inp
  · rw [hawaited, h.skipBytes]
    cases packets <;> rfl
  · rw [PacketsHanded, harrived]
    exact (List.append_nil _).symm

/-- **One read.** -/
theorem step (h : PacketsSound packets before s) (hlimit : ∀ p ∈ packets, p.length ≤ MAX_POST_SIZE)
    {e : StreamRead} (hserved : ReadServed packets s e) :
    PacketsSound packets before (packetStep env packets s e) := by
  unfold packetStep
  split_ifs
  · exact h
  · obtain ⟨hfits, hserved⟩ := hserved
    have hsize (p : WirePacket mode) : p.size = p.encode.length := rfl
    have hgot := awaited_le hsize h.received
    have hdrop := drop_of_awaited hsize packets s.received
    have hadd : arrived WirePacket.size packets (s.received + (s.data packets e).length) = _ :=
      arrived_add packets s.received _
    have hawait : awaited WirePacket.size packets (s.received + (s.data packets e).length) = _ :=
      awaited_add packets s.received _
    have hdata : s.data packets e <+: (packetBytes (awaited WirePacket.size packets
        s.received).1).drop (awaited WirePacket.size packets s.received).2 := by
      show ((packetBytes packets).drop s.received).take e.length <+: _
      rw [packetBytes, hdrop]
      exact List.take_prefix _ _
    have hdataLen : (s.data packets e).length ≤ (packetBytes packets).length - s.received := by
      show (((packetBytes packets).drop s.received).take e.length).length ≤ _
      rw [List.length_take, List.length_drop]
      exact min_le_right _ _
    have hle := h.received
    have hlen : s.conn.inp.length = (awaited WirePacket.size packets s.received).2 := by
      rw [h.inp, List.length_take]
      exact min_eq_left hgot
    rw [hlen] at hfits
    have hinp : (s.conn.deliver (s.data packets e)).inp =
        (packetBytes (awaited WirePacket.size packets s.received).1).take
          ((awaited WirePacket.size packets s.received).2 + (s.data packets e).length) := by
      show s.conn.inp ++ s.data packets e = _
      rw [h.inp, List.take_add, ← List.prefix_iff_eq_take.mp hdata]
    have hmore := hdata.length_le
    rw [List.length_drop] at hmore
    have hdeliver : Receiving mode (arrived WirePacket.size packets s.received).length
        (s.conn.deliver (s.data packets e)) :=
      ⟨h.receiving.type, h.receiving.crypto, h.receiving.wsState, h.receiving.flags,
        h.receiving.inPacketNum, h.receiving.count, h.receiving.cError, h.receiving.cFailed,
        h.receiving.cNetFailed, h.receiving.cStopRead, h.receiving.cStopParse, h.receiving.status⟩
    have hbytes : (packetBytes (awaited WirePacket.size packets s.received).1).length =
        ((awaited WirePacket.size packets s.received).1.flatMap WirePacket.encode).length := rfl
    obtain ⟨r, hrun, hread⟩ := jobRun_packets env hdeliver h.skipBytes
      (Nat.le_add_right _ _) hinp (by omega) hfits
      (fun p hp => hlimit p (mem_of_mem_awaited hp)) hserved e.turns
    rw [hrun]
    refine ⟨?_, ?_, ?_, ?_, ?_⟩
    · show s.received + (s.data packets e).length ≤ _
      omega
    · show Receiving mode (arrived WirePacket.size packets
        (s.received + (s.data packets e).length)).length r.conn
      rw [hadd, List.length_append]
      exact hread.receiving
    · show r.conn.inp = (packetBytes (awaited WirePacket.size packets
        (s.received + (s.data packets e).length)).1).take _
      rw [hawait]
      exact hread.inp
    · show r.conn.skipBytes = waitsFor (awaited WirePacket.size packets
        (s.received + (s.data packets e).length)).1 _
      rw [hawait]
      exact hread.skipBytes
    · show Server.handed r.conn = before ++ (arrived WirePacket.size packets
        (s.received + (s.data packets e).length)).map WirePacket.payload
      rw [hadd, List.map_append, ← List.append_assoc, hread.handed]
      exact congrArg (· ++ _) h.handed

end PacketsSound

/-- **Packets are handed over as they are received**, in every run whose reads leave no whole
packet behind: each once, in order, and no later than with its last byte. -/
theorem packets_delivered {packets : List (WirePacket mode)}
    (hlimit : ∀ p ∈ packets, p.length ≤ MAX_POST_SIZE) {c : Conn W} (h : SessionOpened mode c)
    {events : List StreamRead}
    (hserved : Along (packetStep env packets) (ReadServed packets) ⟨c, 0, false⟩ events) :
    Throughout (packetStep env packets) (PacketsHanded packets (handed c)) ⟨c, 0, false⟩ events :=
  (throughout_of_along (I := PacketsSound packets (handed c)) (fun _ _ hs he => hs.step hlimit he)
    (.start h) hserved).imp fun _ hs => hs.handed

/-! ### The packet that waits -/

/-- **A short packet waits.**  One that is shorter than what the loop looks ahead is left in `in`
when it has been received as a whole and nothing is behind it. -/
theorem shortPacket_waits (env : ExtServerEnv W) {c : Conn W} (h : SessionOpened mode c)
    (p : WirePacket mode) (hshort : p.size < mode.lookAhead) (turns : ℕ) :
    ¬ PacketsHanded [p] (handed c) (packetStep env [p] ⟨c, 0, false⟩ ⟨p.size, turns⟩) := by
  have hdata : PacketRun.data [p] ⟨c, 0, false⟩ ⟨p.size, turns⟩ = p.encode := by
    show ((packetBytes [p]).drop 0).take p.size = _
    rw [List.drop_zero, packetBytes, List.flatMap_cons, List.flatMap_nil, List.append_nil]
    exact List.take_length
  have hd : Receiving mode 0 (c.deliver p.encode) :=
    ⟨h.type, h.crypto, h.wsState, h.flags, h.inPacketNum, h.count, h.cError, h.cFailed,
      h.cNetFailed, h.cStopRead, h.cStopParse, h.status⟩
  have hinp : (c.deliver p.encode).inp = p.encode := by
    show c.inp ++ p.encode = _
    rw [h.inp, List.nil_append]
  have hsize : (c.deliver p.encode).inp.length = p.size := congrArg List.length hinp
  have hpos := p.size_pos
  have hahead : mode.lookAhead ≤ 12 := by cases mode <;> decide
  have hwait := hd.wait_ahead env (List.length_pos_iff.mp (by omega)) (by omega)
  have hcall : (decodedMethods env).parseExecute (c.deliver p.encode) =
      .ok ((c.deliver p.encode).untimed, mode.lookAhead - (c.deliver p.encode).inp.length) := by
    rw [hd.parseExecute]
    exact tcpRpcsCompactParseExecute_of_error env hwait
  have hgoes : ¬ ReaderStops (c.deliver p.encode) := by
    have htotal : totalBytes (c.deliver p.encode).inp = p.size := by
      rw [totalBytes_of_lt (by omega), hsize]
    have hskip : (c.deliver p.encode).skipBytes = 0 := h.skipBytes
    have hstatus := hd.status
    unfold ReaderStops
    rw [hskip, hd.cError, hd.cFailed, hd.cNetFailed, hd.cStopRead, htotal]
    simp_all
    omega
  have hturn : readerTurn (decodedMethods env) (c.deliver p.encode, []) = .done (.ok ⟨_, 0, _⟩) :=
    readerTurn_of_skip hgoes hcall (by omega) (by unfold NEED_MORE_BYTES; omega)
  have hrun := cpuTcpServerReader_of_done
    ((readerFront_decoded hd).trans (readerSkip_none h.skipBytes)) hturn turns
  intro hhanded
  unfold packetStep at hhanded
  rw [if_neg Bool.false_ne_true] at hhanded
  dsimp only at hhanded
  rw [hdata, jobRun_of_live hd.cError, hrun] at hhanded
  have hall : arrived WirePacket.size [p] (0 + p.encode.length) = [p] := by
    rw [Nat.zero_add]
    exact arrived_of_le le_rfl
  unfold PacketsHanded at hhanded
  dsimp only at hhanded
  rw [hall] at hhanded
  have hlen := congrArg List.length hhanded
  rw [List.length_append] at hlen
  exact absurd hlen (Nat.ne_of_lt (Nat.lt_succ_self (handed c).length))

/-- A compact packet without padding. -/
def samplePacket (n : ℕ) (h : 0 < n ∧ 4 * n ≤ MAX_POST_SIZE) : WirePacket .compact where
  payload := List.replicate (4 * n) 0
  padding := []
  quickack := false
  payload_pos := by rw [List.length_replicate]; omega
  payload_dvd := by rw [List.length_replicate]; omega
  payload_le := by rw [List.length_replicate]; exact h.2
  padding_le := Nat.zero_le _

/-- A client in compact mode whose handshake is over. -/
def sampleCompact : Conn Unit :=
  { samplePadded [] with rpc := ⟨⟨true, false, false, false, true⟩, 0, 0, 1, OBFS2_TAG_COMPACT, 2⟩ }

theorem sampleCompact_opened : SessionOpened .compact sampleCompact :=
  ⟨⟨Or.inl rfl, rfl, nofun, ⟨rfl, rfl⟩, by decide, by decide, rfl, rfl, rfl, rfl, rfl, nofun⟩,
    rfl, rfl⟩

/-- A packet of four bytes is not handed over with its last byte. -/
theorem packets_delivered_withheld :
    ¬ Throughout (packetStep sampleServer [samplePacket 1 (by decide)])
      (PacketsHanded [samplePacket 1 (by decide)] (handed sampleCompact))
      ⟨sampleCompact, 0, false⟩ [⟨5, 0⟩] := by
  have hsize : (samplePacket 1 (by decide)).size = 5 := by decide
  have hwaits := shortPacket_waits sampleServer sampleCompact_opened (samplePacket 1 (by decide))
    (by decide) 0
  rw [hsize] at hwaits
  rintro ⟨-, hlast⟩
  exact hwaits hlast

/-- A packet of eight bytes is handed over with its last byte. -/
theorem packets_delivered_sample :
    Throughout (packetStep sampleServer [samplePacket 2 (by decide)])
      (PacketsHanded [samplePacket 2 (by decide)] (handed sampleCompact))
      ⟨sampleCompact, 0, false⟩ [⟨9, 0⟩] :=
  packets_delivered (by decide) sampleCompact_opened
    ⟨⟨by decide, fun _ => ⟨⟨by decide, by decide, Or.inr (by decide)⟩, trivial⟩⟩, trivial⟩

end Server
end Teleproto3
