/-
# A tunnel thread of the local SOCKS shim

`tunnel_thread` of `lib/src/shim_socks5.c` as a program whose steps are its accesses to the shim
and the calls it may block in.

A step takes what the call that the thread stands at returns.  What a tunnel thread reads from
its client decides where it goes; what it carries through the tunnel does not, and is left out.

`TunnelPc.phase` says how far a thread has got: it is ahead of its count in `active_tunnels`,
counted there, or past both, which means that it will not access the shim again.
-/

import Teleproto3.Lib.Bytes
import Teleproto3.Lib.CString

namespace Teleproto3
namespace Client

open Lib

/-- `T3_SHIM_CRED_LEN`. -/
def T3_SHIM_CRED_LEN : ℕ := 32

/-- `struct t3_shim`, as far as its threads read and write it while it is served. -/
structure Shim where
  serverHost : Bytes
  serverPort : ℕ
  wsPath : Bytes
  user : Bytes
  pass : Bytes
  stopping : Bool
  activeTunnels : ℤ
  bytesUp : ℤ
  bytesDown : ℤ

/-- `url`: the address of the server. -/
def Shim.url (sh : Shim) : Bytes :=
  ascii "https://" ++ sh.serverHost ++ ascii ":" ++
    (Nat.toDigits 10 sh.serverPort).map (fun c => UInt8.ofNat c.toNat) ++ sh.wsPath

/-! ### A tunnel thread -/

/-- Where a tunnel thread stands: before which call, or which access. -/
inductive TunnelPc
  /-- `read_exact` of the version and the number of methods -/
  | greeting
  | methods (nmeth : ℕ)
  /-- `send` of the method, where the client knows the one that is asked for, or of none -/
  | methodReply (hasUserpass : Bool)
  | authHeader
  | authUser (ulen : ℕ)
  | authPassLen (user : Bytes)
  | authPass (user : Bytes) (plen : ℕ)
  /-- `sh->user` -/
  | compareUser (user pass : Bytes)
  /-- `sh->pass` -/
  | comparePass (userOk : Bool) (pass : Bytes)
  | authReply (ok : Bool)
  | request
  | requestName
  | requestAddr (alen : ℕ)
  | requestPort
  /-- `sh->server_host`, `sh->server_port` and `sh->ws_path` -/
  | buildUrl
  /-- `t3_client_create_tunnel`, with `sh->secret_key` -/
  | createTunnel
  | waitReady
  | sendGreeting
  | recvGreeting
  | sendRequest
  | recvResponse
  | replySuccess
  /-- `active_tunnels` is raised -/
  | count
  /-- `sh->stopping`, at the head of the splice loop -/
  | loadStopping
  | poll
  | pump (readable hungUp : Bool)
  | drain (readable hungUp : Bool)
  | deliver (readable hungUp : Bool) (n : ℕ)
  /-- `sh->bytes_down` -/
  | countDown (readable hungUp : Bool) (n : ℕ)
  | peer (readable hungUp : Bool)
  | fromClient (hungUp : Bool)
  | toTunnel (hungUp : Bool) (n : ℕ)
  /-- `sh->bytes_up` -/
  | countUp (hungUp : Bool) (n : ℕ)
  /-- `active_tunnels` is lowered -/
  | uncount
  /-- `socks5_reply` with a failure -/
  | refuse (rep : UInt8)
  /-- the stream is destroyed and the socket closed -/
  | finishing
  | finished
  deriving DecidableEq

/-- What a call returns. -/
inductive TunnelInput
  /-- a call that receives: bytes, or a failure -/
  | bytes (r : Option Bytes)
  /-- a call that succeeds or not -/
  | call (ok : Bool)
  /-- `poll`, interrupted -/
  | interrupted
  /-- `poll`, with what holds of the client's socket -/
  | woken (readable hungUp : Bool)

namespace TunnelInput

/-- `read_exact`: the thread goes on with as many bytes as it asked for, or fails. -/
def readExact (inp : TunnelInput) (n : ℕ) (pc : TunnelPc) (k : Bytes → TunnelPc) : TunnelPc :=
  match inp with
  | .bytes none => .finishing
  | .bytes (some bs) => if bs.length = n then k bs else pc
  | _ => pc

/-- A call that receives. -/
def recv (inp : TunnelInput) (pc : TunnelPc) (k : Option Bytes → TunnelPc) : TunnelPc :=
  match inp with
  | .bytes r => k r
  | _ => pc

/-- A call that succeeds or not. -/
def await (inp : TunnelInput) (pc : TunnelPc) (k : Bool → TunnelPc) : TunnelPc :=
  match inp with
  | .call ok => k ok
  | _ => pc

end TunnelInput

namespace TunnelPc

/-- `tunnel_thread`: where the thread goes.  A call that has not returned leaves it where it is. -/
def next (sh : Shim) (pc : TunnelPc) (inp : TunnelInput) : TunnelPc :=
  match pc with
  | .greeting => inp.readExact 2 pc fun buf =>
    if buf.getD 0 0 ≠ 0x05 then .finishing
    else if buf.getD 1 0 = 0 then .methodReply false
    else .methods (buf.getD 1 0).toNat
  | .methods nmeth => inp.readExact nmeth pc fun buf => .methodReply (buf.contains 0x02)
  | .methodReply hasUserpass => inp.await pc fun _ =>
    if hasUserpass then .authHeader else .finishing
  | .authHeader => inp.readExact 2 pc fun authHdr =>
    if authHdr.getD 0 0 ≠ 0x01 then .finishing
    else if (authHdr.getD 1 0).toNat < 1 then .finishing
    else .authUser (authHdr.getD 1 0).toNat
  | .authUser ulen => inp.readExact ulen pc fun userRecv => .authPassLen userRecv
  | .authPassLen user => inp.readExact 1 pc fun plenByte =>
    if (plenByte.getD 0 0).toNat < 1 then .finishing else .authPass user (plenByte.getD 0 0).toNat
  | .authPass user plen => inp.readExact plen pc fun passRecv => .compareUser user passRecv
  | .compareUser user pass =>
    .comparePass (decide (user.length = T3_SHIM_CRED_LEN ∧ user = sh.user)) pass
  | .comparePass userOk pass =>
    .authReply (userOk && decide (pass.length = T3_SHIM_CRED_LEN ∧ pass = sh.pass))
  | .authReply ok => inp.await pc fun _ => if ok then .request else .finishing
  | .request => inp.readExact 4 pc fun buf =>
    if buf.getD 0 0 ≠ 0x05 then .finishing
    else if buf.getD 1 0 ≠ 0x01 then .refuse 0x07
    else if buf.getD 3 0 = 0x01 then .requestAddr 4
    else if buf.getD 3 0 = 0x03 then .requestName
    else if buf.getD 3 0 = 0x04 then .requestAddr 16
    else .finishing
  | .requestName => inp.readExact 1 pc fun buf =>
    if buf.getD 0 0 = 0 then .finishing else .requestAddr (buf.getD 0 0).toNat
  | .requestAddr alen => inp.readExact alen pc fun _ => .requestPort
  | .requestPort => inp.readExact 2 pc fun _ => .buildUrl
  | .buildUrl => if sh.url.length ≥ 1024 then .refuse 0x01 else .createTunnel
  | .createTunnel => inp.await pc fun ok => if ok then .waitReady else .refuse 0x04
  | .waitReady => inp.await pc fun ok => if ok then .sendGreeting else .refuse 0x04
  | .sendGreeting => inp.await pc fun ok => if ok then .recvGreeting else .refuse 0x04
  | .recvGreeting => inp.recv pc fun sr =>
    if sr = some [0x05, 0x00] then .sendRequest else .refuse 0x04
  | .sendRequest => inp.await pc fun ok => if ok then .recvResponse else .refuse 0x04
  | .recvResponse => inp.recv pc fun sresp =>
    match sresp with
    | none => .refuse 0x05
    | some bs => if bs.length < 4 ∨ bs.getD 1 0 ≠ 0x00 then .refuse 0x05 else .replySuccess
  | .replySuccess => inp.await pc fun _ => .count
  | .count => .loadStopping
  | .loadStopping => if sh.stopping then .uncount else .poll
  | .poll =>
    match inp with
    | .interrupted => .loadStopping
    | .woken readable hungUp => .pump readable hungUp
    | .call false => .uncount
    | _ => pc
  -- A stream that has failed or is closed ends the loop.
  | .pump readable hungUp => inp.await pc fun ok => if ok then .drain readable hungUp else .uncount
  | .drain readable hungUp => inp.recv pc fun r =>
    match r with
    | none => .uncount
    | some [] => .peer readable hungUp
    | some (b :: bs) => .deliver readable hungUp (b :: bs).length
  | .deliver readable hungUp n => inp.await pc fun ok =>
    if ok then .countDown readable hungUp n else .uncount
  | .countDown readable hungUp _ => .drain readable hungUp
  -- A server that has closed, or whose socket has failed, ends the loop.
  | .peer readable hungUp => inp.await pc fun ok =>
    if ok = false then .uncount
    else if readable then .fromClient hungUp
    else if hungUp then .uncount
    else .loadStopping
  | .fromClient hungUp => inp.recv pc fun r =>
    match r with
    | none | some [] => .uncount
    | some (b :: bs) => .toTunnel hungUp (b :: bs).length
  | .toTunnel hungUp n => inp.await pc fun ok => if ok then .countUp hungUp n else .uncount
  | .countUp hungUp _ => if hungUp then .uncount else .loadStopping
  | .uncount => .finishing
  | .refuse _ => .finishing
  | .finishing => .finished
  | .finished => .finished

/-- What a step of the thread does to the shim. -/
def effect (sh : Shim) : TunnelPc → Shim
  | .count => { sh with activeTunnels := sh.activeTunnels + 1 }
  | .uncount => { sh with activeTunnels := sh.activeTunnels - 1 }
  | .countDown _ _ n => { sh with bytesDown := sh.bytesDown + n }
  | .countUp _ n => { sh with bytesUp := sh.bytesUp + n }
  | _ => sh

/-- Whether the step is an access to the shim.  The credentials are compared where their length is
right. -/
def accesses : TunnelPc → Prop
  | .compareUser user _ => user.length = T3_SHIM_CRED_LEN
  | .comparePass _ pass => pass.length = T3_SHIM_CRED_LEN
  | .buildUrl | .createTunnel | .count | .loadStopping | .countDown _ _ _ | .countUp _ _
  | .uncount => True
  | _ => False

end TunnelPc

/-- How far a tunnel thread has got. -/
inductive TunnelPhase
  | ahead
  | counted
  | past
  deriving DecidableEq

/-- **How far a tunnel thread has got**, by where it stands. -/
def TunnelPc.phase : TunnelPc → TunnelPhase
  | .methods nmeth => if nmeth = 0 then .past else .ahead
  | .methodReply ok | .authReply ok => if ok then .ahead else .past
  | .authPass user plen =>
    if user.length = T3_SHIM_CRED_LEN ∨ plen = T3_SHIM_CRED_LEN then .ahead else .past
  | .compareUser user pass =>
    if user.length = T3_SHIM_CRED_LEN ∨ pass.length = T3_SHIM_CRED_LEN then .ahead else .past
  | .comparePass _ pass => if pass.length = T3_SHIM_CRED_LEN then .ahead else .past
  | .greeting | .authHeader | .authUser _ | .authPassLen _ | .request | .requestName
  | .requestAddr _ | .requestPort | .buildUrl | .createTunnel | .waitReady | .sendGreeting
  | .recvGreeting | .sendRequest | .recvResponse | .replySuccess | .count => .ahead
  | .loadStopping | .poll | .pump _ _ | .drain _ _ | .deliver _ _ _ | .countDown _ _ _ | .peer _ _
  | .fromClient _ | .toTunnel _ _ | .countUp _ _ | .uncount => .counted
  | .refuse _ | .finishing | .finished => .past

namespace TunnelInput

variable (P : TunnelPc → Prop) {pc : TunnelPc} (inp : TunnelInput)

/-- Where a thread is after a call: where it was, out, or behind the call. -/
theorem readExact_cases {n : ℕ} {k : Bytes → TunnelPc} (hpc : P pc) (hout : P .finishing)
    (hk : ∀ bs, bs.length = n → P (k bs)) : P (inp.readExact n pc k) := by
  unfold readExact
  split
  · exact hout
  · split_ifs with hlen
    · exact hk _ hlen
    · exact hpc
  · exact hpc

theorem readExact_some {n : ℕ} {k : Bytes → TunnelPc} {bs : Bytes} (h : bs.length = n) :
    (TunnelInput.bytes (some bs)).readExact n pc k = k bs := if_pos h

theorem recv_cases {k : Option Bytes → TunnelPc} (hpc : P pc) (hk : ∀ r, P (k r)) :
    P (inp.recv pc k) := by
  unfold recv
  split
  · exact hk _
  · exact hpc

theorem await_cases {k : Bool → TunnelPc} (hpc : P pc) (hk : ∀ ok, P (k ok)) :
    P (inp.await pc k) := by
  unfold await
  split
  · exact hk _
  · exact hpc

end TunnelInput

namespace TunnelPc

variable (sh : Shim) {pc : TunnelPc} (inp : TunnelInput)

/-- **A thread that is past its accesses stays there**, and does not access the shim. -/
theorem next_past (h : pc.phase = .past) :
    (pc.next sh inp).phase = .past ∧ ¬ pc.accesses ∧ pc.effect sh = sh := by
  cases pc with
  | methods nmeth =>
    have hzero : nmeth = 0 := by
      by_contra hne
      exact nomatch (if_neg hne).symm.trans h
    refine ⟨inp.readExact_cases (·.phase = .past) h rfl fun bs hlen => ?_, not_false, rfl⟩
    rw [hzero, List.length_eq_zero_iff] at hlen
    rw [hlen]
    rfl
  | methodReply ok =>
    cases ok with
    | true => exact nomatch h
    | false => exact ⟨inp.await_cases (·.phase = .past) rfl fun _ => rfl, not_false, rfl⟩
  | authReply ok =>
    cases ok with
    | true => exact nomatch h
    | false => exact ⟨inp.await_cases (·.phase = .past) rfl fun _ => rfl, not_false, rfl⟩
  | authPass user plen =>
    have hlens : ¬ (user.length = T3_SHIM_CRED_LEN ∨ plen = T3_SHIM_CRED_LEN) := fun hor =>
      nomatch (if_pos hor).symm.trans h
    refine ⟨inp.readExact_cases (·.phase = .past) h rfl fun bs hlen => ?_, not_false, rfl⟩
    rw [← hlen] at hlens
    exact if_neg hlens
  | compareUser user pass =>
    have hlens : ¬ (user.length = T3_SHIM_CRED_LEN ∨ pass.length = T3_SHIM_CRED_LEN) := fun hor =>
      nomatch (if_pos hor).symm.trans h
    exact ⟨if_neg fun hpass => hlens (Or.inr hpass), fun huser => hlens (Or.inl huser), rfl⟩
  | comparePass userOk pass =>
    have hlen : pass.length ≠ T3_SHIM_CRED_LEN := fun hpass => nomatch (if_pos hpass).symm.trans h
    refine ⟨?_, hlen, rfl⟩
    have hwrong : (userOk && decide (pass.length = T3_SHIM_CRED_LEN ∧ pass = sh.pass)) = false := by
      simp [hlen]
    show (TunnelPc.authReply _).phase = _
    rw [hwrong]
    rfl
  | refuse rep => exact ⟨rfl, not_false, rfl⟩
  | finishing => exact ⟨rfl, not_false, rfl⟩
  | finished => exact ⟨rfl, not_false, rfl⟩
  | _ => exact nomatch h

/-- **A thread that is counted stays so** until it takes itself off. -/
theorem next_counted (h : pc.phase = .counted) (hne : pc ≠ .uncount) :
    (pc.next sh inp).phase = .counted := by
  cases pc with
  | uncount => exact absurd rfl hne
  | loadStopping => cases hstop : sh.stopping <;> simp [next, hstop, phase]
  | poll =>
    unfold next
    dsimp only
    split <;> rfl
  | pump readable hungUp =>
    refine inp.await_cases (·.phase = .counted) rfl fun ok => ?_
    cases ok <;> rfl
  | drain readable hungUp =>
    refine inp.recv_cases (·.phase = .counted) rfl fun r => ?_
    rcases r with _ | _ | _ <;> rfl
  | deliver readable hungUp n =>
    refine inp.await_cases (·.phase = .counted) rfl fun ok => ?_
    cases ok <;> rfl
  | countDown readable hungUp n => rfl
  | peer readable hungUp =>
    refine inp.await_cases (·.phase = .counted) rfl fun ok => ?_
    cases ok <;> cases readable <;> cases hungUp <;> rfl
  | fromClient hungUp =>
    refine inp.recv_cases (·.phase = .counted) rfl fun r => ?_
    rcases r with _ | _ | _ <;> rfl
  | toTunnel hungUp n =>
    refine inp.await_cases (·.phase = .counted) rfl fun ok => ?_
    cases ok <;> rfl
  | countUp hungUp n => cases hungUp <;> rfl
  | methodReply ok => cases ok <;> exact nomatch h
  | authReply ok => cases ok <;> exact nomatch h
  | methods nmeth =>
    simp only [phase] at h
    split_ifs at h
  | authPass user plen =>
    simp only [phase] at h
    split_ifs at h
  | compareUser user pass =>
    simp only [phase] at h
    split_ifs at h
  | comparePass userOk pass =>
    simp only [phase] at h
    split_ifs at h
  | _ => exact nomatch h

/-- **A thread that is ahead of its count** comes to it, or is not counted. -/
theorem next_ahead (h : pc.phase = .ahead) (hne : pc ≠ .count) :
    (pc.next sh inp).phase ≠ .counted := by
  have hite {c : Prop} [Decidable c] : (if c then TunnelPhase.past else .ahead) ≠ .counted := by
    split_ifs <;> decide
  have hite' {c : Prop} [Decidable c] : (if c then TunnelPhase.ahead else .past) ≠ .counted := by
    split_ifs <;> decide
  cases pc with
  | count => exact absurd rfl hne
  | greeting =>
    refine inp.readExact_cases (·.phase ≠ .counted) (by decide) (by decide) fun bs _ => ?_
    split_ifs
    · decide
    · decide
    · exact hite
  | methods nmeth =>
    refine inp.readExact_cases (·.phase ≠ .counted) hite (by decide) fun bs _ => ?_
    exact hite'
  | methodReply ok =>
    refine inp.await_cases (·.phase ≠ .counted) hite' fun _ => ?_
    cases ok <;> decide
  | authHeader =>
    refine inp.readExact_cases (·.phase ≠ .counted) (by decide) (by decide) fun bs _ => ?_
    split_ifs <;> nofun
  | authUser ulen =>
    exact inp.readExact_cases (·.phase ≠ .counted) nofun (by decide) fun bs _ => nofun
  | authPassLen user =>
    refine inp.readExact_cases (·.phase ≠ .counted) nofun (by decide) fun bs _ => ?_
    split_ifs
    · decide
    · exact hite'
  | authPass user plen =>
    exact inp.readExact_cases (·.phase ≠ .counted) hite' (by decide) fun bs _ => hite'
  | compareUser user pass => exact hite'
  | comparePass userOk pass => exact hite'
  | authReply ok =>
    refine inp.await_cases (·.phase ≠ .counted) hite' fun _ => ?_
    cases ok <;> decide
  | request =>
    refine inp.readExact_cases (·.phase ≠ .counted) (by decide) (by decide) fun bs _ => ?_
    split_ifs <;> nofun
  | requestName =>
    refine inp.readExact_cases (·.phase ≠ .counted) (by decide) (by decide) fun bs _ => ?_
    split_ifs <;> nofun
  | requestAddr alen =>
    exact inp.readExact_cases (·.phase ≠ .counted) nofun (by decide) fun bs _ => nofun
  | requestPort =>
    exact inp.readExact_cases (·.phase ≠ .counted) nofun (by decide) fun bs _ => nofun
  | buildUrl =>
    unfold next
    dsimp only
    split_ifs <;> nofun
  | createTunnel =>
    refine inp.await_cases (·.phase ≠ .counted) nofun fun ok => ?_
    cases ok <;> nofun
  | waitReady =>
    refine inp.await_cases (·.phase ≠ .counted) nofun fun ok => ?_
    cases ok <;> nofun
  | sendGreeting =>
    refine inp.await_cases (·.phase ≠ .counted) nofun fun ok => ?_
    cases ok <;> nofun
  | recvGreeting =>
    refine inp.recv_cases (·.phase ≠ .counted) nofun fun r => ?_
    split_ifs <;> nofun
  | sendRequest =>
    refine inp.await_cases (·.phase ≠ .counted) nofun fun ok => ?_
    cases ok <;> nofun
  | recvResponse =>
    refine inp.recv_cases (·.phase ≠ .counted) nofun fun r => ?_
    cases r with
    | none => nofun
    | some bs =>
      dsimp only
      split_ifs <;> nofun
  | replySuccess => exact inp.await_cases (·.phase ≠ .counted) nofun fun ok => nofun
  | _ => exact nomatch h

/-- Some calls bring the thread to an access. -/
def Reaches (pc : TunnelPc) : Prop :=
  ∃ inps : List TunnelInput, (inps.foldl (next sh) pc).accesses

variable {sh}

theorem Reaches.here (h : pc.accesses) : Reaches sh pc := ⟨[], h⟩

theorem Reaches.step (h : Reaches sh (pc.next sh inp)) : Reaches sh pc := by
  obtain ⟨inps, hinps⟩ := h
  exact ⟨inp :: inps, hinps⟩

variable (sh)

/-- From the request on, a client that goes on as it should. -/
theorem reaches_request : Reaches sh .request ∧ Reaches sh .requestName ∧
    (∀ alen, Reaches sh (.requestAddr alen)) ∧ Reaches sh .requestPort := by
  have hurl : Reaches sh .buildUrl := .here trivial
  have hport : Reaches sh .requestPort := .step (.bytes (some [0, 0])) hurl
  have haddr (alen : ℕ) : Reaches sh (.requestAddr alen) := by
    refine .step (.bytes (some (List.replicate alen 0))) ?_
    unfold next
    dsimp only
    rw [TunnelInput.readExact_some List.length_replicate]
    exact hport
  exact ⟨.step (.bytes (some [5, 1, 0, 1])) (haddr 4), .step (.bytes (some [1])) (haddr 1), haddr,
    hport⟩

/-- From the tunnel on, a server that answers. -/
theorem reaches_tunnel : Reaches sh .waitReady ∧ Reaches sh .sendGreeting ∧
    Reaches sh .recvGreeting ∧ Reaches sh .sendRequest ∧ Reaches sh .recvResponse ∧
      Reaches sh .replySuccess := by
  have hcount : Reaches sh .count := .here trivial
  have hreply : Reaches sh .replySuccess := .step (.call true) hcount
  have hresponse : Reaches sh .recvResponse := .step (.bytes (some [5, 0, 0, 1])) hreply
  have hrequest : Reaches sh .sendRequest := .step (.call true) hresponse
  have hgreeted : Reaches sh .recvGreeting := .step (.bytes (some [5, 0])) hrequest
  have hgreeting : Reaches sh .sendGreeting := .step (.call true) hgreeted
  exact ⟨.step (.call true) hgreeting, hgreeting, hgreeted, hrequest, hresponse, hreply⟩

/-- Credentials of which one has the right length are compared. -/
theorem reaches_compare {user pass : Bytes}
    (h : user.length = T3_SHIM_CRED_LEN ∨ pass.length = T3_SHIM_CRED_LEN) :
    Reaches sh (.compareUser user pass) := by
  rcases h with huser | hpass
  · exact .here huser
  · exact .step (.call true) (.here hpass)

theorem reaches_authPass {user : Bytes} {plen : ℕ}
    (h : user.length = T3_SHIM_CRED_LEN ∨ plen = T3_SHIM_CRED_LEN) :
    Reaches sh (.authPass user plen) := by
  refine .step (.bytes (some (List.replicate plen 0))) ?_
  unfold next
  dsimp only
  rw [TunnelInput.readExact_some List.length_replicate]
  refine reaches_compare sh ?_
  rw [List.length_replicate]
  exact h

/-- From the greeting on, a client that sends a password of the right length. -/
theorem reaches_auth : (∀ nmeth, nmeth ≠ 0 → Reaches sh (.methods nmeth)) ∧
    Reaches sh (.methodReply true) ∧ Reaches sh .authHeader ∧
      (∀ ulen, Reaches sh (.authUser ulen)) ∧ ∀ user, Reaches sh (.authPassLen user) := by
  have hlen (user : Bytes) : Reaches sh (.authPassLen user) :=
    .step (.bytes (some [32])) (reaches_authPass sh (Or.inr rfl))
  have huser (ulen : ℕ) : Reaches sh (.authUser ulen) := by
    refine .step (.bytes (some (List.replicate ulen 0))) ?_
    unfold next
    dsimp only
    rw [TunnelInput.readExact_some List.length_replicate]
    exact hlen _
  have hheader : Reaches sh .authHeader := .step (.bytes (some [1, 32])) (huser 32)
  have hmethod : Reaches sh (.methodReply true) := .step (.call true) hheader
  refine ⟨fun nmeth hne => ?_, hmethod, hheader, huser, hlen⟩
  refine .step (.bytes (some (List.replicate nmeth 2))) ?_
  unfold next
  dsimp only
  rw [TunnelInput.readExact_some List.length_replicate]
  have hmem : (List.replicate nmeth (2 : UInt8)).contains 2 = true := by simp [hne]
  rw [hmem]
  exact hmethod

/-- **A thread that is ahead of its count can still access the shim.** -/
theorem reaches_of_ahead (h : pc.phase = .ahead) : Reaches sh pc := by
  obtain ⟨hrequest, hname, haddr, hport⟩ := reaches_request sh
  obtain ⟨hwait, hgreeting, hgreeted, hsend, hresponse, hreply⟩ := reaches_tunnel sh
  obtain ⟨hmethods, hmethod, hheader, huser, hlen⟩ := reaches_auth sh
  cases pc with
  | greeting => exact .step (.bytes (some [5, 1])) (hmethods 1 (by decide))
  | methods nmeth =>
    refine hmethods nmeth fun hzero => ?_
    exact nomatch (if_pos hzero).symm.trans h
  | methodReply ok =>
    cases ok with
    | true => exact hmethod
    | false => exact nomatch h
  | authHeader => exact hheader
  | authUser ulen => exact huser ulen
  | authPassLen user => exact hlen user
  | authPass user plen =>
    refine reaches_authPass sh ?_
    by_contra hlens
    exact nomatch (if_neg hlens).symm.trans h
  | compareUser user pass =>
    refine reaches_compare sh ?_
    by_contra hlens
    exact nomatch (if_neg hlens).symm.trans h
  | comparePass userOk pass =>
    refine .here ?_
    show pass.length = T3_SHIM_CRED_LEN
    by_contra hlen
    exact nomatch (if_neg hlen).symm.trans h
  | authReply ok =>
    cases ok with
    | true => exact .step (.call true) hrequest
    | false => exact nomatch h
  | request => exact hrequest
  | requestName => exact hname
  | requestAddr alen => exact haddr alen
  | requestPort => exact hport
  | buildUrl => exact .here trivial
  | createTunnel => exact .here trivial
  | waitReady => exact hwait
  | sendGreeting => exact hgreeting
  | recvGreeting => exact hgreeted
  | sendRequest => exact hsend
  | recvResponse => exact hresponse
  | replySuccess => exact hreply
  | count => exact .here trivial
  | _ => exact nomatch h

/-- What is no access leaves the shim as it is. -/
theorem effect_of_not_accesses (h : ¬ pc.accesses) : pc.effect sh = sh := by
  cases pc with
  | count => exact absurd trivial h
  | uncount => exact absurd trivial h
  | countDown readable hungUp n => exact absurd trivial h
  | countUp hungUp n => exact absurd trivial h
  | _ => rfl

/-- What a thread that is neither coming to its count nor leaving it does to `active_tunnels`. -/
theorem effect_activeTunnels (hcount : pc ≠ .count) (huncount : pc ≠ .uncount) :
    (pc.effect sh).activeTunnels = sh.activeTunnels := by
  cases pc with
  | count => exact absurd rfl hcount
  | uncount => exact absurd rfl huncount
  | _ => rfl

end TunnelPc

end Client
end Teleproto3
