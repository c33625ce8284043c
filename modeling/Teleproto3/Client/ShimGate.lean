/-
# The gate of the local SOCKS shim

What `tunnel_thread` of `lib/src/shim_socks5.c` reads from the socket of its client, and what it
then does with a tunnel.  Where the thread goes is `TunnelPc.next`; here it stands on a stream that
arrives in parts, and keeps the target that it is asked for.

`TunnelThread.Stands` says what the client has sent to bring the thread where it is.  A tunnel is
opened only behind a greeting that offers the method, the credentials of the shim and a request
with an address, and what is sent into it is the target of that request (`tunnelThread_gate`);
behind all of these it is opened (`tunnelThread_opens`).
-/

import Teleproto3.Client.Shim
import Teleproto3.Client.Tunnel
import Teleproto3.Lib.Loop

namespace Teleproto3
namespace Client

open Lib

/-! ### The socket of the client -/

/-- What the client sends until it closes: a part without bytes is the end. -/
def received (parts : List Bytes) : Bytes := (parts.takeWhile (· ≠ [])).flatten

/-- `recv`: what one part brings, and no more than asked for. -/
def recvPart (parts : List Bytes) (len : ℕ) : Option (Bytes × List Bytes) :=
  match parts with
  | [] => none
  | part :: parts =>
    if part = [] then none
    else if part.length ≤ len then some (part, parts)
    else some (part.take len, part.drop len :: parts)

/-- One turn of `read_exact`: what has been got, and what is left. -/
def readExactTurn (len : ℕ) (s : Bytes × List Bytes) :
    Turn (Bytes × List Bytes) (Option (Bytes × List Bytes)) :=
  if s.1.length < len then
    match recvPart s.2 (len - s.1.length) with
    | none => .done none
    | some (r, parts) => .again (s.1 ++ r, parts)
  else .done (some s)

@[simp] theorem received_nil : received [] = [] := rfl

@[simp] theorem received_end (parts : List Bytes) : received ([] :: parts) = [] := rfl

theorem received_cons {part : Bytes} (h : part ≠ []) (parts : List Bytes) :
    received (part :: parts) = part ++ received parts := by
  simp [received, h]

/-- **What `recv` brings** is the next of the stream. -/
theorem recvPart_some {parts rest : List Bytes} {len : ℕ} {r : Bytes} (hlen : 0 < len)
    (h : recvPart parts len = some (r, rest)) :
    r ≠ [] ∧ r.length ≤ len ∧ r ++ received rest = received parts := by
  cases parts with
  | nil => simp [recvPart] at h
  | cons part parts =>
    simp only [recvPart] at h
    split_ifs at h with hend hfits
    · obtain ⟨rfl, rfl⟩ := Prod.mk.inj (Option.some.inj h)
      exact ⟨hend, hfits, (received_cons hend _).symm⟩
    · obtain ⟨rfl, rfl⟩ := Prod.mk.inj (Option.some.inj h)
      have hdrop : part.drop len ≠ [] := by
        rw [Ne, List.drop_eq_nil_iff]
        exact hfits
      refine ⟨?_, List.length_take_le _ _, ?_⟩
      · rw [Ne, List.take_eq_nil_iff]
        exact not_or.mpr ⟨hlen.ne', hend⟩
      · rw [received_cons hdrop, ← List.append_assoc, List.take_append_drop, received_cons hend]

/-- It fails at the end. -/
theorem recvPart_none {parts : List Bytes} {len : ℕ} (h : recvPart parts len = none) :
    received parts = [] := by
  cases parts with
  | nil => rfl
  | cons part parts =>
    simp only [recvPart] at h
    split_ifs at h with hend
    rw [hend]
    rfl

theorem readExactTurn_shrinks (len : ℕ) :
    Shrinks (readExactTurn len) fun s => len - s.1.length := by
  intro s s' h
  unfold readExactTurn at h
  split_ifs at h with hmore
  cases hrecv : recvPart s.2 (len - s.1.length) with
  | none =>
    rw [hrecv] at h
    simp at h
  | some p =>
    obtain ⟨hne, -, -⟩ := recvPart_some (Nat.sub_pos_of_lt hmore) hrecv
    have hpos := List.length_pos_of_ne_nil hne
    rw [hrecv] at h
    rw [← Turn.again.inj h]
    show len - (s.1 ++ p.1).length < len - s.1.length
    rw [List.length_append]
    omega

/-- `read_exact`. -/
def readExact (parts : List Bytes) (len : ℕ) : Option (Bytes × List Bytes) :=
  loop (readExactTurn len) (fun s => len - s.1.length) (readExactTurn_shrinks len) ([], parts)

/-- **`read_exact` takes so many bytes off the stream**, however it arrives, or the stream is
shorter. -/
theorem readExact_spec (parts : List Bytes) (len : ℕ) :
    match readExact parts len with
    | none => (received parts).length < len
    | some (bs, rest) => bs.length = len ∧ bs ++ received rest = received parts := by
  refine loop_inv (I := fun s => s.1.length ≤ len ∧ s.1 ++ received s.2 = received parts)
    (Q := fun r : Option (Bytes × List Bytes) => match r with
      | none => (received parts).length < len
      | some (bs, rest) => bs.length = len ∧ bs ++ received rest = received parts)
    (readExactTurn_shrinks len) (fun s s' hI h => ?_) (fun s r hI h => ?_)
    ⟨Nat.zero_le _, rfl⟩
  · unfold readExactTurn at h
    split_ifs at h with hmore
    cases hrecv : recvPart s.2 (len - s.1.length) with
    | none =>
      rw [hrecv] at h
      simp at h
    | some p =>
      obtain ⟨-, hle, happ⟩ := recvPart_some (Nat.sub_pos_of_lt hmore) hrecv
      rw [hrecv] at h
      rw [← Turn.again.inj h, List.length_append, List.append_assoc, happ]
      exact ⟨by omega, hI.2⟩
  · unfold readExactTurn at h
    split_ifs at h with hmore
    · cases hrecv : recvPart s.2 (len - s.1.length) with
      | none =>
        rw [hrecv] at h
        rw [← Turn.done.inj h, ← hI.2, recvPart_none hrecv, List.append_nil]
        exact hmore
      | some p =>
        rw [hrecv] at h
        simp at h
    · rw [← Turn.done.inj h]
      exact ⟨by omega, hI.2⟩

/-- What it has read. -/
theorem readExact_some {parts rest : List Bytes} {len : ℕ} {bs : Bytes}
    (h : readExact parts len = some (bs, rest)) :
    bs.length = len ∧ bs ++ received rest = received parts := by
  have hspec := readExact_spec parts len
  rw [h] at hspec
  exact hspec

/-- Where there are so many bytes they are read. -/
theorem readExact_append {parts : List Bytes} {bs tail : Bytes} (h : received parts = bs ++ tail) :
    ∃ rest, readExact parts bs.length = some (bs, rest) ∧ received rest = tail := by
  have hspec := readExact_spec parts bs.length
  cases hread : readExact parts bs.length with
  | none =>
    rw [hread, h, List.length_append] at hspec
    omega
  | some p =>
    rw [hread, h] at hspec
    obtain ⟨hbs, hrest⟩ := List.append_inj hspec.2 hspec.1
    exact ⟨p.2, by rw [← hbs], hrest⟩

/-! ### The thread -/

/-- A call of the thread on its tunnel. -/
inductive TunnelCall
  /-- `t3_client_create_tunnel` -/
  | create (url : Bytes)
  /-- `t3_client_write` -/
  | write (message : Bytes)
  deriving DecidableEq

/-- The thread, with its locals, what its client's socket has left, and what it has done with the
tunnel. -/
structure TunnelThread where
  pc : TunnelPc
  parts : List Bytes
  atyp : UInt8
  dstAddr : Bytes
  dstPort : Bytes
  calls : List TunnelCall

/-- How many bytes `read_exact` is asked for, where the thread stands before it. -/
def TunnelPc.reads : TunnelPc → Option ℕ
  | .greeting | .authHeader | .requestPort => some 2
  | .methods nmeth => some nmeth
  | .authUser ulen => some ulen
  | .authPassLen _ | .requestName => some 1
  | .authPass _ plen => some plen
  | .request => some 4
  | .requestAddr alen => some alen
  | _ => none

/-- `creq`. -/
def tunnelRequest (atyp : UInt8) (dstAddr dstPort : Bytes) : Bytes :=
  [0x05, 0x01, 0x00, atyp] ++ (if atyp = 0x03 then [UInt8.ofNat dstAddr.length] else []) ++ dstAddr
    ++ dstPort

namespace TunnelThread

/-- What is kept of the bytes that were read. -/
def store (t : TunnelThread) (bs : Bytes) : TunnelThread :=
  match t.pc with
  | .request => { t with atyp := bs.getD 3 0 }
  | .requestAddr _ => { t with dstAddr := bs }
  | .requestPort => { t with dstPort := bs }
  | _ => t

/-- What a call of the thread does with the tunnel. -/
def onTunnel (sh : Shim) (t : TunnelThread) (inp : TunnelInput) : List TunnelCall :=
  match t.pc, inp with
  | .createTunnel, .call _ => [.create sh.url]
  | .sendGreeting, .call _ => [.write (tunnelFramed [0x05, 0x01, 0x00])]
  | .sendRequest, .call _ => [.write (tunnelFramed (tunnelRequest t.atyp t.dstAddr t.dstPort))]
  | _, _ => []

/-- A step of the thread.  What is read comes from the client, what any other call returns is
given. -/
def step (sh : Shim) (t : TunnelThread) (inp : TunnelInput) : TunnelThread :=
  match t.pc.reads with
  | some len =>
    match readExact t.parts len with
    | none => { t with pc := t.pc.next sh (.bytes none) }
    | some (bs, parts) =>
      { t.store bs with pc := t.pc.next sh (.bytes (some bs)), parts := parts }
  | none => { t with pc := t.pc.next sh inp, calls := t.calls ++ t.onTunnel sh inp }

/-- A thread for a client that has connected. -/
def start (parts : List Bytes) : TunnelThread := ⟨.greeting, parts, 0, [], [], []⟩

/-- A run of the thread: what its calls return, and whether the shim is being closed, which is all
of it that changes. -/
def run (sh : Shim) (parts : List Bytes) (moves : List (Bool × TunnelInput)) : TunnelThread :=
  moves.foldl (fun t m => t.step { sh with stopping := m.1 } m.2) (start parts)

end TunnelThread

/-! ### What the client has sent -/

/-- A greeting with these methods. -/
def socks5Greeting (methods : Bytes) : Bytes := 0x05 :: UInt8.ofNat methods.length :: methods

/-- The message of RFC 1929. -/
def socks5Auth (user pass : Bytes) : Bytes :=
  0x01 :: UInt8.ofNat user.length :: user ++ UInt8.ofNat pass.length :: pass

/-- A request to connect to a target. -/
def socks5Connect (rsv atyp : UInt8) (addr port : Bytes) : Bytes :=
  [0x05, 0x01, rsv, atyp] ++ (if atyp = 0x03 then [UInt8.ofNat addr.length] else []) ++ addr ++ port

/-- The types of an address, each with the lengths it may have. -/
def AddrLen (atyp : UInt8) (alen : ℕ) : Prop :=
  atyp = 0x01 ∧ alen = 4 ∨ atyp = 0x03 ∧ 1 ≤ alen ∧ alen ≤ 255 ∨ atyp = 0x04 ∧ alen = 16

/-- The client has offered the method that is asked for. -/
def Greeted (sent : Bytes) : Prop :=
  ∃ methods : Bytes, methods.length ≤ 255 ∧ 0x02 ∈ methods ∧ sent = socks5Greeting methods

/-- It has sent the credentials of the shim behind that. -/
def Authorized (sh : Shim) (sent : Bytes) : Prop :=
  sh.user.length = T3_SHIM_CRED_LEN ∧ sh.pass.length = T3_SHIM_CRED_LEN ∧
    ∃ greeting, Greeted greeting ∧ sent = greeting ++ socks5Auth sh.user sh.pass

/-- **It has asked for a target**, behind both. -/
def Admitted (sh : Shim) (atyp : UInt8) (addr port sent : Bytes) : Prop :=
  AddrLen atyp addr.length ∧ port.length = 2 ∧
    ∃ authorized rsv, Authorized sh authorized ∧
      sent = authorized ++ socks5Connect rsv atyp addr port

namespace TunnelThread

/-- What is done with the tunnel for a target. -/
def fullCalls (sh : Shim) (t : TunnelThread) : List TunnelCall :=
  [.create sh.url, .write (tunnelFramed [0x05, 0x01, 0x00]),
    .write (tunnelFramed (tunnelRequest t.atyp t.dstAddr t.dstPort))]

/-- **What the client has sent** to bring a thread that has not come to its tunnel where it is. -/
def Sent (sh : Shim) (t : TunnelThread) (sent : Bytes) : Prop :=
  match t.pc with
  | .greeting => sent = []
  | .methods nmeth => ∃ k : UInt8, nmeth = k.toNat ∧ sent = [0x05, k]
  | .methodReply hasUserpass => hasUserpass = true → Greeted sent
  | .authHeader => Greeted sent
  | .authUser ulen => ∃ greeting k, Greeted greeting ∧ ulen = k.toNat ∧ sent = greeting ++ [0x01, k]
  | .authPassLen user => ∃ greeting, Greeted greeting ∧ user.length ≤ 255 ∧
      sent = greeting ++ 0x01 :: UInt8.ofNat user.length :: user
  | .authPass user plen => ∃ greeting k, Greeted greeting ∧ user.length ≤ 255 ∧ plen = k.toNat ∧
      sent = greeting ++ (0x01 :: UInt8.ofNat user.length :: user ++ [k])
  | .compareUser user pass => ∃ greeting, Greeted greeting ∧ sent = greeting ++ socks5Auth user pass
  | .comparePass userOk pass => userOk = true → sh.user.length = T3_SHIM_CRED_LEN ∧
      ∃ greeting, Greeted greeting ∧ sent = greeting ++ socks5Auth sh.user pass
  | .authReply ok => ok = true → Authorized sh sent
  | .request => Authorized sh sent
  | .requestName => t.atyp = 0x03 ∧ ∃ authorized rsv, Authorized sh authorized ∧
      sent = authorized ++ [0x05, 0x01, rsv, t.atyp]
  | .requestAddr alen => AddrLen t.atyp alen ∧ ∃ authorized rsv, Authorized sh authorized ∧
      sent = authorized ++ ([0x05, 0x01, rsv, t.atyp] ++
        if t.atyp = 0x03 then [UInt8.ofNat alen] else [])
  | .requestPort => AddrLen t.atyp t.dstAddr.length ∧ ∃ authorized rsv, Authorized sh authorized ∧
      sent = authorized ++ ([0x05, 0x01, rsv, t.atyp] ++
        (if t.atyp = 0x03 then [UInt8.ofNat t.dstAddr.length] else []) ++ t.dstAddr)
  | .refuse _ | .finishing | .finished => True
  | _ => Admitted sh t.atyp t.dstAddr t.dstPort sent

/-- How many of the calls the thread has made, where it stands behind some. -/
def callsMade : TunnelPc → ℕ
  | .waitReady | .sendGreeting => 1
  | .recvGreeting | .sendRequest => 2
  | .recvResponse | .replySuccess | .count | .loadStopping | .poll | .pump _ _ | .drain _ _
  | .deliver _ _ _ | .countDown _ _ _ | .peer _ _ | .fromClient _ | .toTunnel _ _ | .countUp _ _
  | .uncount => 3
  | _ => 0

/-- The thread is leaving. -/
def Leaving : TunnelPc → Prop
  | .refuse _ | .finishing | .finished => True
  | _ => False

/-- **What has been done with the tunnel**: nothing, or what is done for the target that the client
was admitted with, as far as it went. -/
def Gated (sh : Shim) (stream : Bytes) (t : TunnelThread) : Prop :=
  t.calls = [] ∨ t.calls <+: t.fullCalls sh ∧
    ∃ sent rest, stream = sent ++ rest ∧ Admitted sh t.atyp t.dstAddr t.dstPort sent

/-- **The invariant of a thread** on a stream. -/
structure Stands (sh : Shim) (stream : Bytes) (t : TunnelThread) : Prop where
  sent : ∃ sent, sent ++ received t.parts = stream ∧ t.Sent sh sent
  calls : Leaving t.pc ∨ t.calls = (t.fullCalls sh).take (callsMade t.pc)
  gated : t.Gated sh stream

variable {sh : Shim} {stream sent : Bytes} {t : TunnelThread}

/-- A thread that has not come to its tunnel. -/
theorem stands_of_nil (hstream : sent ++ received t.parts = stream) (hsent : t.Sent sh sent)
    (hcalls : t.calls = []) (hmade : callsMade t.pc = 0) : t.Stands sh stream :=
  ⟨⟨sent, hstream, hsent⟩, Or.inr (by rw [hcalls, hmade, List.take_zero]), Or.inl hcalls⟩

/-- A thread whose client was admitted. -/
theorem stands_of_admitted (hstream : sent ++ received t.parts = stream) (hsent : t.Sent sh sent)
    (hadmitted : Admitted sh t.atyp t.dstAddr t.dstPort sent) {n : ℕ}
    (hcalls : t.calls = (t.fullCalls sh).take n) (hmade : Leaving t.pc ∨ callsMade t.pc = n) :
    t.Stands sh stream :=
  ⟨⟨sent, hstream, hsent⟩, hmade.imp_right fun h => by rw [h, hcalls],
    Or.inr ⟨hcalls ▸ List.take_prefix _ _, sent, _, hstream.symm, hadmitted⟩⟩

/-- The client of a thread in its splice loop has been admitted, and nothing of its loop is done
with the tunnel here. -/
theorem sent_counted (sh : Shim) (h : t.pc.phase = .counted) :
    ¬ Leaving t.pc ∧ callsMade t.pc = 3 ∧
      (∀ sent, t.Sent sh sent ↔ Admitted sh t.atyp t.dstAddr t.dstPort sent) ∧
        t.pc.reads = none ∧ ∀ sh inp, t.onTunnel sh inp = [] := by
  obtain ⟨pc, parts, atyp, dstAddr, dstPort, calls⟩ := t
  cases pc with
  | loadStopping => exact ⟨not_false, rfl, fun _ => Iff.rfl, rfl, fun _ _ => rfl⟩
  | poll => exact ⟨not_false, rfl, fun _ => Iff.rfl, rfl, fun _ _ => rfl⟩
  | pump readable hungUp => exact ⟨not_false, rfl, fun _ => Iff.rfl, rfl, fun _ _ => rfl⟩
  | drain readable hungUp => exact ⟨not_false, rfl, fun _ => Iff.rfl, rfl, fun _ _ => rfl⟩
  | deliver readable hungUp n => exact ⟨not_false, rfl, fun _ => Iff.rfl, rfl, fun _ _ => rfl⟩
  | countDown readable hungUp n => exact ⟨not_false, rfl, fun _ => Iff.rfl, rfl, fun _ _ => rfl⟩
  | peer readable hungUp => exact ⟨not_false, rfl, fun _ => Iff.rfl, rfl, fun _ _ => rfl⟩
  | fromClient hungUp => exact ⟨not_false, rfl, fun _ => Iff.rfl, rfl, fun _ _ => rfl⟩
  | toTunnel hungUp n => exact ⟨not_false, rfl, fun _ => Iff.rfl, rfl, fun _ _ => rfl⟩
  | countUp hungUp n => exact ⟨not_false, rfl, fun _ => Iff.rfl, rfl, fun _ _ => rfl⟩
  | uncount => exact ⟨not_false, rfl, fun _ => Iff.rfl, rfl, fun _ _ => rfl⟩
  | _ =>
    simp only [TunnelPc.phase] at h
    first | split_ifs at h | simp at h

@[simp] theorem store_calls (bs : Bytes) : (t.store bs).calls = t.calls := by
  unfold store
  split <;> rfl

/-- The four bytes a request begins with. -/
theorem exists_four {bs : Bytes} (h : bs.length = 4) : ∃ a b c d, bs = [a, b, c, d] := by
  match bs, h with
  | [a, b, c, d], _ => exact ⟨a, b, c, d, rfl⟩

/-- **What a thread has read brings it where it goes.** -/
theorem sent_read {len : ℕ} {bs : Bytes} (parts : List Bytes) (hreads : t.pc.reads = some len)
    (hsent : t.Sent sh sent) (hlen : bs.length = len) {b : Bool} {t' : TunnelThread}
    (ht' : t' = { t.store bs with
      pc := t.pc.next { sh with stopping := b } (.bytes (some bs)), parts := parts }) :
    t'.Sent sh (sent ++ bs) ∧ callsMade t'.pc = 0 := by
  obtain ⟨pc, parts, atyp, dstAddr, dstPort, calls⟩ := t
  subst ht'
  cases pc with
  | greeting =>
    obtain rfl := Option.some.inj hreads
    obtain ⟨a, k, rfl⟩ := List.length_eq_two.mp hlen
    obtain rfl : sent = [] := hsent
    simp only [store, TunnelPc.next, TunnelInput.readExact_some hlen, List.getD_cons_zero,
      List.getD_cons_succ]
    split_ifs with ha hk
    · exact ⟨trivial, rfl⟩
    · exact ⟨fun h => by simp at h, rfl⟩
    · rw [not_not.mp ha]
      exact ⟨⟨k, rfl, rfl⟩, rfl⟩
  | methods nmeth =>
    obtain rfl := Option.some.inj hreads
    obtain ⟨k, hk, rfl⟩ := hsent
    simp only [store, TunnelPc.next, TunnelInput.readExact_some hlen]
    refine ⟨fun hmem => ?_, rfl⟩
    have hle := k.toNat_lt
    refine ⟨bs, by omega, by simpa using hmem, ?_⟩
    rw [socks5Greeting, hlen, hk, UInt8.ofNat_toNat]
    rfl
  | authHeader =>
    obtain rfl := Option.some.inj hreads
    obtain ⟨a, k, rfl⟩ := List.length_eq_two.mp hlen
    simp only [store, TunnelPc.next, TunnelInput.readExact_some hlen, List.getD_cons_zero,
      List.getD_cons_succ]
    split_ifs with ha hk
    · exact ⟨trivial, rfl⟩
    · exact ⟨trivial, rfl⟩
    · rw [not_not.mp ha]
      exact ⟨⟨sent, k, hsent, rfl, rfl⟩, rfl⟩
  | authUser ulen =>
    obtain rfl := Option.some.inj hreads
    obtain ⟨greeting, k, hgreeting, hk, rfl⟩ := hsent
    simp only [store, TunnelPc.next, TunnelInput.readExact_some hlen]
    have hle := k.toNat_lt
    refine ⟨⟨greeting, hgreeting, by omega, ?_⟩, rfl⟩
    rw [hlen, hk, UInt8.ofNat_toNat, List.append_assoc]
    rfl
  | authPassLen user =>
    obtain rfl := Option.some.inj hreads
    obtain ⟨k, rfl⟩ := List.length_eq_one_iff.mp hlen
    obtain ⟨greeting, hgreeting, huser, rfl⟩ := hsent
    simp only [store, TunnelPc.next, TunnelInput.readExact_some hlen, List.getD_cons_zero]
    split_ifs with hk
    · exact ⟨trivial, rfl⟩
    · refine ⟨⟨greeting, k, hgreeting, huser, rfl, ?_⟩, rfl⟩
      rw [List.append_assoc]
  | authPass user plen =>
    obtain rfl := Option.some.inj hreads
    obtain ⟨greeting, k, hgreeting, huser, hk, rfl⟩ := hsent
    simp only [store, TunnelPc.next, TunnelInput.readExact_some hlen]
    refine ⟨⟨greeting, hgreeting, ?_⟩, rfl⟩
    rw [socks5Auth, hlen, hk, UInt8.ofNat_toNat]
    simp
  | request =>
    obtain rfl := Option.some.inj hreads
    obtain ⟨a, cmd, rsv, k, rfl⟩ := exists_four hlen
    simp only [store, TunnelPc.next, TunnelInput.readExact_some hlen, List.getD_cons_zero,
      List.getD_cons_succ]
    split_ifs with ha hcmd hk hk' hk''
    · exact ⟨trivial, rfl⟩
    · exact ⟨trivial, rfl⟩
    · rw [not_not.mp ha, not_not.mp hcmd]
      refine ⟨⟨Or.inl ⟨hk, rfl⟩, sent, rsv, hsent, ?_⟩, rfl⟩
      rw [hk]
      rfl
    · rw [not_not.mp ha, not_not.mp hcmd]
      exact ⟨⟨hk', sent, rsv, hsent, rfl⟩, rfl⟩
    · rw [not_not.mp ha, not_not.mp hcmd]
      refine ⟨⟨Or.inr (Or.inr ⟨hk'', rfl⟩), sent, rsv, hsent, ?_⟩, rfl⟩
      rw [hk'']
      rfl
    · exact ⟨trivial, rfl⟩
  | requestName =>
    obtain rfl := Option.some.inj hreads
    obtain ⟨k, rfl⟩ := List.length_eq_one_iff.mp hlen
    obtain ⟨rfl, authorized, rsv, hauthorized, rfl⟩ := hsent
    simp only [store, TunnelPc.next, TunnelInput.readExact_some hlen, List.getD_cons_zero]
    split_ifs with hk
    · exact ⟨trivial, rfl⟩
    · have hle := k.toNat_lt
      have hpos : k.toNat ≠ 0 := fun h => hk (UInt8.toNat_inj.mp h)
      refine ⟨⟨Or.inr (Or.inl ⟨rfl, by omega, by omega⟩), authorized, rsv, hauthorized, ?_⟩, rfl⟩
      rw [List.append_assoc, if_pos rfl, UInt8.ofNat_toNat]
  | requestAddr alen =>
    obtain rfl := Option.some.inj hreads
    obtain ⟨halen, authorized, rsv, hauthorized, rfl⟩ := hsent
    simp only [store, TunnelPc.next, TunnelInput.readExact_some hlen]
    rw [← hlen] at halen
    refine ⟨⟨halen, authorized, rsv, hauthorized, ?_⟩, rfl⟩
    rw [hlen, List.append_assoc]
  | requestPort =>
    obtain rfl := Option.some.inj hreads
    obtain ⟨halen, authorized, rsv, hauthorized, rfl⟩ := hsent
    simp only [store, TunnelPc.next, TunnelInput.readExact_some hlen]
    refine ⟨⟨halen, hlen, authorized, rsv, hauthorized, ?_⟩, rfl⟩
    rw [List.append_assoc]
    rfl
  | _ => simp [TunnelPc.reads] at hreads

/-- A thread before a read has not come to its tunnel, and leaves where the read fails. -/
theorem reads_some {pc : TunnelPc} {len : ℕ} (h : pc.reads = some len) (sh : Shim) :
    ¬ Leaving pc ∧ callsMade pc = 0 ∧ pc.next sh (.bytes none) = .finishing := by
  cases pc <;> simp [TunnelPc.reads] at h <;> exact ⟨not_false, rfl, rfl⟩

/-- A read. -/
theorem Stands.read (h : t.Stands sh stream) {len : ℕ} (hreads : t.pc.reads = some len) (b : Bool)
    (inp : TunnelInput) : (t.step { sh with stopping := b } inp).Stands sh stream := by
  obtain ⟨hstay, hmade, hfail⟩ := reads_some hreads { sh with stopping := b }
  obtain ⟨sent, hstream, hsent⟩ := h.sent
  have hcalls : t.calls = [] := by
    rw [h.calls.resolve_left hstay, hmade, List.take_zero]
  simp only [step, hreads]
  cases hread : readExact t.parts len with
  | none =>
    simp only [hfail]
    exact stands_of_nil hstream trivial hcalls rfl
  | some p =>
    obtain ⟨hlen, happ⟩ := readExact_some hread
    obtain ⟨hsent', hmade'⟩ := sent_read (b := b) p.2 hreads hsent hlen rfl
    refine stands_of_nil ?_ hsent' ?_ hmade'
    · rw [List.append_assoc, happ, hstream]
    · exact (store_calls p.1).trans hcalls

/-- A call ahead of the tunnel. -/
theorem Stands.before (h : t.Stands sh stream) (hstay : ¬ Leaving t.pc) (hmade : callsMade t.pc = 0)
    {pc : TunnelPc} (hsent : ∀ sent, t.Sent sh sent → { t with pc := pc }.Sent sh sent)
    (hmade' : callsMade pc = 0) : { t with pc := pc }.Stands sh stream := by
  obtain ⟨sent, hstream, hat⟩ := h.sent
  have hcalls : t.calls = [] := by
    rw [h.calls.resolve_left hstay, hmade, List.take_zero]
  exact stands_of_nil hstream (hsent sent hat) hcalls hmade'

/-- A call of a thread whose client was admitted. -/
theorem Stands.behind (h : t.Stands sh stream) (hstay : ¬ Leaving t.pc)
    (hat : ∀ sent, t.Sent sh sent → Admitted sh t.atyp t.dstAddr t.dstPort sent) {pc : TunnelPc}
    {made : List TunnelCall} {n : ℕ}
    (hmade : (t.fullCalls sh).take (callsMade t.pc) ++ made = (t.fullCalls sh).take n)
    (hpc : Leaving pc ∨ callsMade pc = n)
    (hsent : ∀ sent, Admitted sh t.atyp t.dstAddr t.dstPort sent →
      { t with pc := pc }.Sent sh sent) :
    { t with pc := pc, calls := t.calls ++ made }.Stands sh stream := by
  obtain ⟨sent, hstream, hat'⟩ := h.sent
  have hadmitted := hat sent hat'
  have hcalls : t.calls ++ made = (t.fullCalls sh).take n := by
    rw [h.calls.resolve_left hstay, hmade]
  exact stands_of_admitted hstream (hsent sent hadmitted) hadmitted hcalls hpc

/-- One that does nothing with the tunnel. -/
theorem Stands.onwards (h : t.Stands sh stream) (hstay : ¬ Leaving t.pc)
    (hat : ∀ sent, t.Sent sh sent → Admitted sh t.atyp t.dstAddr t.dstPort sent) {pc : TunnelPc}
    (hpc : Leaving pc ∨ callsMade pc = callsMade t.pc)
    (hsent : ∀ sent, Admitted sh t.atyp t.dstAddr t.dstPort sent →
      { t with pc := pc }.Sent sh sent) : { t with pc := pc }.Stands sh stream := by
  have hmoved := h.behind hstay hat (List.append_nil _) hpc hsent
  rwa [List.append_nil] at hmoved

/-- A thread that is leaving. -/
theorem Stands.leave (h : t.Stands sh stream) {pc : TunnelPc} (hpc : Leaving pc)
    (hsent : ∀ sent, { t with pc := pc }.Sent sh sent) : { t with pc := pc }.Stands sh stream :=
  ⟨h.sent.imp fun sent hat => ⟨hat.1, hsent sent⟩, Or.inl hpc, h.gated⟩

/-- A call that says nothing of the client and does nothing with the tunnel. -/
theorem step_call {pc : TunnelPc} (hpc : t.pc = pc) (hreads : pc.reads = none) {sh : Shim}
    {inp : TunnelInput} (hmade : t.onTunnel sh inp = []) :
    t.step sh inp = { t with pc := pc.next sh inp } := by
  subst hpc
  simp only [step, hreads, hmade, List.append_nil]

/-- A step of the splice loop. -/
theorem Stands.splice (h : t.Stands sh stream) (hphase : t.pc.phase = .counted)
    (hne : t.pc ≠ .uncount) (b : Bool) (inp : TunnelInput) :
    (t.step { sh with stopping := b } inp).Stands sh stream := by
  obtain ⟨hstay, hmade, hat, hreads, hcalls⟩ := sent_counted sh hphase
  have hphase' := t.pc.next_counted { sh with stopping := b } inp hphase hne
  rw [step_call rfl hreads (hcalls _ inp)]
  generalize t.pc.next { sh with stopping := b } inp = pc at hphase'
  obtain ⟨-, hmade', hat', -, -⟩ := sent_counted (t := { t with pc := pc }) sh hphase'
  exact h.onwards hstay (fun sent => (hat sent).mp) (Or.inr (hmade'.trans hmade.symm))
    fun sent => (hat' sent).mpr

/-- **A step keeps the invariant.** -/
theorem Stands.step (h : t.Stands sh stream) (b : Bool) (inp : TunnelInput) :
    (t.step { sh with stopping := b } inp).Stands sh stream := by
  cases hreads : t.pc.reads with
  | some len => exact h.read hreads b inp
  | none =>
    obtain ⟨pc, parts, atyp, dstAddr, dstPort, calls⟩ := t
    cases pc with
    | methodReply hasUserpass =>
      rw [step_call rfl rfl rfl]
      refine inp.await_cases (fun pc => Stands sh stream ⟨pc, parts, atyp, dstAddr, dstPort, calls⟩)
        h fun _ => ?_
      cases hasUserpass with
      | true => exact h.before not_false rfl (fun sent hsent => hsent rfl) rfl
      | false => exact h.before not_false rfl (fun sent _ => trivial) rfl
    | compareUser user pass =>
      rw [step_call rfl rfl rfl]
      refine h.before not_false rfl (fun sent hsent hok => ?_) rfl
      obtain ⟨hlen, rfl⟩ := of_decide_eq_true hok
      exact ⟨hlen, hsent⟩
    | comparePass userOk pass =>
      rw [step_call rfl rfl rfl]
      refine h.before not_false rfl (fun sent hsent hok => ?_) rfl
      obtain ⟨huser, hpass⟩ := (Bool.and_eq_true _ _).mp hok
      obtain ⟨hlen, rfl⟩ := of_decide_eq_true hpass
      exact ⟨(hsent huser).1, hlen, (hsent huser).2⟩
    | authReply ok =>
      rw [step_call rfl rfl rfl]
      refine inp.await_cases (fun pc => Stands sh stream ⟨pc, parts, atyp, dstAddr, dstPort, calls⟩)
        h fun _ => ?_
      cases ok with
      | true => exact h.before not_false rfl (fun sent hsent => hsent rfl) rfl
      | false => exact h.before not_false rfl (fun sent _ => trivial) rfl
    | buildUrl =>
      rw [step_call rfl rfl rfl]
      simp only [TunnelPc.next]
      split_ifs
      · exact h.leave trivial fun _ => trivial
      · exact h.onwards not_false (fun _ => id) (Or.inr rfl) fun _ => id
    | createTunnel =>
      cases inp with
      | call ok =>
        cases ok with
        | true => exact h.behind (n := 1) not_false (fun _ => id) rfl (Or.inr rfl) fun _ => id
        | false =>
          exact h.behind (n := 1) not_false (fun _ => id) rfl (Or.inl trivial) fun _ _ => trivial
      | _ =>
        rw [step_call rfl rfl rfl]
        exact h
    | waitReady =>
      rw [step_call rfl rfl rfl]
      refine inp.await_cases (fun pc => Stands sh stream ⟨pc, parts, atyp, dstAddr, dstPort, calls⟩)
        h fun ok => ?_
      cases ok with
      | true => exact h.onwards not_false (fun _ => id) (Or.inr rfl) fun _ => id
      | false => exact h.leave trivial fun _ => trivial
    | sendGreeting =>
      cases inp with
      | call ok =>
        cases ok with
        | true => exact h.behind (n := 2) not_false (fun _ => id) rfl (Or.inr rfl) fun _ => id
        | false =>
          exact h.behind (n := 2) not_false (fun _ => id) rfl (Or.inl trivial) fun _ _ => trivial
      | _ =>
        rw [step_call rfl rfl rfl]
        exact h
    | recvGreeting =>
      rw [step_call rfl rfl rfl]
      refine inp.recv_cases (fun pc => Stands sh stream ⟨pc, parts, atyp, dstAddr, dstPort, calls⟩)
        h fun sr => ?_
      split_ifs
      · exact h.onwards not_false (fun _ => id) (Or.inr rfl) fun _ => id
      · exact h.leave trivial fun _ => trivial
    | sendRequest =>
      cases inp with
      | call ok =>
        cases ok with
        | true => exact h.behind (n := 3) not_false (fun _ => id) rfl (Or.inr rfl) fun _ => id
        | false =>
          exact h.behind (n := 3) not_false (fun _ => id) rfl (Or.inl trivial) fun _ _ => trivial
      | _ =>
        rw [step_call rfl rfl rfl]
        exact h
    | recvResponse =>
      rw [step_call rfl rfl rfl]
      refine inp.recv_cases (fun pc => Stands sh stream ⟨pc, parts, atyp, dstAddr, dstPort, calls⟩)
        h fun sresp => ?_
      cases sresp with
      | none => exact h.leave trivial fun _ => trivial
      | some bs =>
        dsimp only
        split_ifs
        · exact h.leave trivial fun _ => trivial
        · exact h.onwards not_false (fun _ => id) (Or.inr rfl) fun _ => id
    | replySuccess =>
      rw [step_call rfl rfl rfl]
      exact inp.await_cases (fun pc => Stands sh stream ⟨pc, parts, atyp, dstAddr, dstPort, calls⟩)
        h fun _ => h.onwards not_false (fun _ => id) (Or.inr rfl) fun _ => id
    | count =>
      rw [step_call rfl rfl rfl]
      exact h.onwards not_false (fun _ => id) (Or.inr rfl) fun _ => id
    | uncount =>
      rw [step_call rfl rfl rfl]
      exact h.leave trivial fun _ => trivial
    | refuse rep =>
      rw [step_call rfl rfl rfl]
      exact h.leave trivial fun _ => trivial
    | finishing =>
      rw [step_call rfl rfl rfl]
      exact h.leave trivial fun _ => trivial
    | finished =>
      rw [step_call rfl rfl rfl]
      exact h.leave trivial fun _ => trivial
    | greeting => simp [TunnelPc.reads] at hreads
    | methods nmeth => simp [TunnelPc.reads] at hreads
    | authHeader => simp [TunnelPc.reads] at hreads
    | authUser ulen => simp [TunnelPc.reads] at hreads
    | authPassLen user => simp [TunnelPc.reads] at hreads
    | authPass user plen => simp [TunnelPc.reads] at hreads
    | request => simp [TunnelPc.reads] at hreads
    | requestName => simp [TunnelPc.reads] at hreads
    | requestAddr alen => simp [TunnelPc.reads] at hreads
    | requestPort => simp [TunnelPc.reads] at hreads
    | _ => exact h.splice rfl (by simp) b inp

/-- **The invariant holds all the way.** -/
theorem stands_run (sh : Shim) (parts : List Bytes) (moves : List (Bool × TunnelInput)) :
    (run sh parts moves).Stands sh (received parts) := by
  have hstart : (start parts).Stands sh (received parts) :=
    stands_of_nil (List.nil_append _) rfl rfl rfl
  unfold run
  generalize start parts = t at hstart
  induction moves generalizing t with
  | nil => exact hstart
  | cons m moves ih => exact ih _ (hstart.step m.1 m.2)

end TunnelThread

/-! ### The gate -/

/-- **The gate of the shim.**  Whatever its client sends, in whatever parts, and whatever its calls
return, a thread has either done nothing with a tunnel; or the client has sent a greeting that
offers the method, the credentials of the shim and a request with an address, and what has been
done is to open the tunnel, to greet the server and to send it the target of that request, as far as
it went. -/
theorem tunnelThread_gate (sh : Shim) (parts : List Bytes) (moves : List (Bool × TunnelInput)) :
    (TunnelThread.run sh parts moves).calls = [] ∨
      ∃ (methods : Bytes) (rsv atyp : UInt8) (addr port rest : Bytes),
        received parts = socks5Greeting methods ++ socks5Auth sh.user sh.pass ++
            socks5Connect rsv atyp addr port ++ rest ∧
          methods.length ≤ 255 ∧ 0x02 ∈ methods ∧
            sh.user.length = T3_SHIM_CRED_LEN ∧ sh.pass.length = T3_SHIM_CRED_LEN ∧
              AddrLen atyp addr.length ∧ port.length = 2 ∧
                (TunnelThread.run sh parts moves).calls <+:
                  [.create sh.url, .write (tunnelFramed [0x05, 0x01, 0x00]),
                    .write (tunnelFramed (socks5Connect 0x00 atyp addr port))] := by
  rcases (TunnelThread.stands_run sh parts moves).gated with hnone | ⟨hcalls, sent, rest, hsent, h⟩
  · exact Or.inl hnone
  · obtain ⟨hlen, hport, _, rsv, ⟨huser, hpass, _, ⟨methods, hle, hmem, rfl⟩, rfl⟩, rfl⟩ := h
    exact Or.inr ⟨methods, rsv, _, _, _, rest, hsent, hle, hmem, huser, hpass, hlen, hport, hcalls⟩

/-! ### Behind the gate -/

namespace TunnelThread

/-- Some answers bring the thread to have made these calls. -/
def Opens (sh : Shim) (calls : List TunnelCall) (t : TunnelThread) : Prop :=
  ∃ moves : List (Bool × TunnelInput),
    (moves.foldl (fun t m => t.step { sh with stopping := m.1 } m.2) t).calls = calls

variable {sh : Shim} {calls : List TunnelCall} {t : TunnelThread}

theorem Opens.step (inp : TunnelInput)
    (h : Opens sh calls (t.step { sh with stopping := false } inp)) : Opens sh calls t := by
  obtain ⟨moves, hmoves⟩ := h
  exact ⟨(false, inp) :: moves, hmoves⟩

/-- A read of what the stream has next. -/
theorem Opens.read {bs tail : Bytes} {pc : TunnelPc} (hparts : received t.parts = bs ++ tail)
    (hreads : t.pc.reads = some bs.length)
    (hnext : t.pc.next { sh with stopping := false } (.bytes (some bs)) = pc)
    (h : ∀ parts, received parts = tail →
      Opens sh calls { t.store bs with pc := pc, parts := parts }) :
    Opens sh calls t := by
  obtain ⟨rest, hread, hrest⟩ := readExact_append hparts
  refine .step (.call true) ?_
  simp only [TunnelThread.step, hreads, hread, hnext]
  exact h rest hrest

/-- Behind the request the tunnel is opened. -/
theorem opens_tunnel (hurl : sh.url.length < 1024) (parts : List Bytes) (atyp : UInt8)
    (addr port : Bytes) :
    Opens sh (fullCalls sh ⟨.buildUrl, parts, atyp, addr, port, []⟩)
      ⟨.buildUrl, parts, atyp, addr, port, []⟩ := by
  have hnext : TunnelPc.next { sh with stopping := false } .buildUrl (.call true) = .createTunnel :=
    if_neg (not_le.mpr hurl)
  refine .step (.call true) ?_
  rw [step_call rfl rfl rfl, hnext]
  exact ⟨[(false, .call true), (false, .call true), (false, .call true),
    (false, .bytes (some [0x05, 0x00])), (false, .call true)], rfl⟩

/-- From the address on. -/
theorem opens_addr (hurl : sh.url.length < 1024) {atyp : UInt8} {addr port rest dst old : Bytes}
    {parts : List Bytes} (hport : port.length = 2)
    (hparts : received parts = addr ++ (port ++ rest)) :
    Opens sh (fullCalls sh ⟨.buildUrl, parts, atyp, addr, port, []⟩)
      ⟨.requestAddr addr.length, parts, atyp, dst, old, []⟩ := by
  refine .read hparts rfl (if_pos rfl) fun parts hparts => ?_
  refine .read hparts (congrArg some hport.symm) (if_pos hport) fun parts _ => ?_
  exact opens_tunnel hurl parts atyp addr port

/-- From the request on. -/
theorem opens_request (hurl : sh.url.length < 1024) {rsv atyp k : UInt8}
    {addr port rest dst old : Bytes} {parts : List Bytes} (haddr : AddrLen atyp addr.length)
    (hport : port.length = 2)
    (hparts : received parts = socks5Connect rsv atyp addr port ++ rest) :
    Opens sh (fullCalls sh ⟨.buildUrl, parts, atyp, addr, port, []⟩)
      ⟨.request, parts, k, dst, old, []⟩ := by
  have hhead : received parts = [0x05, 0x01, rsv, atyp] ++
      ((if atyp = 0x03 then [UInt8.ofNat addr.length] else []) ++ (addr ++ (port ++ rest))) := by
    rw [hparts, socks5Connect]
    simp only [List.append_assoc]
  rcases haddr with ⟨rfl, hlen⟩ | ⟨rfl, hpos, hlen⟩ | ⟨rfl, hlen⟩
  · have hnext : TunnelPc.next { sh with stopping := false } .request
        (.bytes (some [0x05, 0x01, rsv, 0x01])) = .requestAddr addr.length := by
      rw [hlen]
      rfl
    exact .read hhead rfl hnext fun parts hparts => opens_addr hurl hport hparts
  · have hnat : (UInt8.ofNat addr.length).toNat = addr.length := by
      rw [UInt8.toNat_ofNat', Nat.mod_eq_of_lt (by omega)]
    have hne : UInt8.ofNat addr.length ≠ 0 := by
      intro hzero
      rw [hzero, UInt8.toNat_zero] at hnat
      omega
    refine .read hhead rfl rfl fun parts hparts => ?_
    have hnext : TunnelPc.next { sh with stopping := false } .requestName
        (.bytes (some [UInt8.ofNat addr.length])) = .requestAddr addr.length :=
      (if_neg hne).trans (congrArg TunnelPc.requestAddr hnat)
    exact .read hparts rfl hnext fun parts hparts => opens_addr hurl hport hparts
  · have hnext : TunnelPc.next { sh with stopping := false } .request
        (.bytes (some [0x05, 0x01, rsv, 0x04])) = .requestAddr addr.length := by
      rw [hlen]
      rfl
    exact .read hhead rfl hnext fun parts hparts => opens_addr hurl hport hparts

/-- From the credentials on. -/
theorem opens_auth (huser : sh.user.length = T3_SHIM_CRED_LEN)
    (hpass : sh.pass.length = T3_SHIM_CRED_LEN) {tail : Bytes} {parts : List Bytes}
    (hparts : received parts = socks5Auth sh.user sh.pass ++ tail)
    (h : ∀ parts, received parts = tail → Opens sh calls ⟨.request, parts, 0, [], [], []⟩) :
    Opens sh calls ⟨.authHeader, parts, 0, [], [], []⟩ := by
  have hhead : received parts = [0x01, 0x20] ++ (sh.user ++ ([0x20] ++ (sh.pass ++ tail))) := by
    rw [hparts, socks5Auth, huser, hpass]
    simp [T3_SHIM_CRED_LEN]
  refine .read hhead rfl rfl fun parts hparts => ?_
  refine .read hparts (congrArg some huser.symm) (if_pos huser) fun parts hparts => ?_
  refine .read hparts rfl rfl fun parts hparts => ?_
  refine .read hparts (congrArg some hpass.symm) (if_pos hpass) fun parts hparts => ?_
  have huser' : TunnelPc.next { sh with stopping := false } (.compareUser sh.user sh.pass)
      (.call true) = .comparePass true sh.pass := by
    simp [TunnelPc.next, huser]
  have hpass' : TunnelPc.next { sh with stopping := false } (.comparePass true sh.pass)
      (.call true) = .authReply true := by
    simp [TunnelPc.next, hpass]
  refine .step (.call true) ?_
  rw [step_call rfl rfl rfl, huser']
  refine .step (.call true) ?_
  rw [step_call rfl rfl rfl, hpass']
  exact .step (.call true) (h parts hparts)

/-- From the greeting on. -/
theorem opens_greeting {methods tail : Bytes} {parts : List Bytes} (hle : methods.length ≤ 255)
    (hmem : 0x02 ∈ methods) (hparts : received parts = socks5Greeting methods ++ tail)
    (h : ∀ parts, received parts = tail → Opens sh calls ⟨.authHeader, parts, 0, [], [], []⟩) :
    Opens sh calls (start parts) := by
  have hhead : received parts = [0x05, UInt8.ofNat methods.length] ++ (methods ++ tail) := hparts
  have hpos := List.length_pos_of_mem hmem
  have hnat : (UInt8.ofNat methods.length).toNat = methods.length := by
    rw [UInt8.toNat_ofNat', Nat.mod_eq_of_lt (by omega)]
  have hne : UInt8.ofNat methods.length ≠ 0 := by
    intro hzero
    rw [hzero, UInt8.toNat_zero] at hnat
    omega
  have hnext : TunnelPc.next { sh with stopping := false } .greeting
      (.bytes (some [0x05, UInt8.ofNat methods.length])) = .methods methods.length :=
    (if_neg hne).trans (congrArg TunnelPc.methods hnat)
  have hreply : TunnelPc.next { sh with stopping := false } (.methods methods.length)
      (.bytes (some methods)) = .methodReply true := by
    simp [TunnelPc.next, TunnelInput.readExact, hmem]
  refine .read hhead rfl hnext fun parts hparts => ?_
  refine .read hparts rfl hreply fun parts hparts => ?_
  exact .step (.call true) (h parts hparts)

end TunnelThread

/-- **The gate opens**: a client that sends all of it in whatever parts, with an address of the
server that fits, has its tunnel opened where the calls of the thread succeed. -/
theorem tunnelThread_opens {sh : Shim} {parts : List Bytes} {methods : Bytes} {rsv atyp : UInt8}
    {addr port rest : Bytes}
    (hparts : received parts = socks5Greeting methods ++ socks5Auth sh.user sh.pass ++
      socks5Connect rsv atyp addr port ++ rest)
    (hle : methods.length ≤ 255) (hmem : 0x02 ∈ methods)
    (huser : sh.user.length = T3_SHIM_CRED_LEN) (hpass : sh.pass.length = T3_SHIM_CRED_LEN)
    (haddr : AddrLen atyp addr.length) (hport : port.length = 2) (hurl : sh.url.length < 1024) :
    ∃ moves, (TunnelThread.run sh parts moves).calls =
      [.create sh.url, .write (tunnelFramed [0x05, 0x01, 0x00]),
        .write (tunnelFramed (socks5Connect 0x00 atyp addr port))] := by
  rw [List.append_assoc, List.append_assoc] at hparts
  exact TunnelThread.opens_greeting hle hmem hparts fun parts hparts =>
    TunnelThread.opens_auth huser hpass hparts fun parts hparts =>
      TunnelThread.opens_request hurl haddr hport hparts

/-- A shim of a server. -/
def sampleGate : Shim :=
  ⟨ascii "a.org", 443, ascii "/t", .replicate 32 7, .replicate 32 8, false, 0, 0, 0⟩

/-- A client of it sends all in two parts. -/
theorem tunnelThread_opens_sample :
    ∃ moves, (TunnelThread.run sampleGate [[0x05, 0x01], 0x02 ::
        (socks5Auth sampleGate.user sampleGate.pass ++
          socks5Connect 0 0x01 [1, 2, 3, 4] [0, 80])] moves).calls =
      [.create sampleGate.url, .write (tunnelFramed [0x05, 0x01, 0x00]),
        .write (tunnelFramed (socks5Connect 0x00 0x01 [1, 2, 3, 4] [0, 80]))] :=
  tunnelThread_opens
    (show _ = socks5Greeting [0x02] ++ socks5Auth _ _ ++ socks5Connect 0 _ _ _ ++ [] from rfl)
    (by decide) (by decide) rfl rfl (.inl ⟨rfl, rfl⟩) rfl (by decide)

end Client
end Teleproto3
