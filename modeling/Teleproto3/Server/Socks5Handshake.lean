/-
# The handshake with a SOCKS5 proxy

Which replies of a proxy let a connection to a data centre send its init: `socks5_handle_response`
of `server/src/net/net-tcp-direct-dc.c`, run by the reader on a stream that arrives in parts.

`Replies` are the replies of a handshake that succeeds, `Refusal` those of one that fails at the
last of them.  Each call of `parse_execute` handles one reply and asks for more bytes, so that a
call of the reader handles one reply (`InTurn`): a proxy that answers what it has been asked has its
replies handled as they are complete (`inTurn_of_blocks`), while a reply that arrives together with
the one before it waits for the next call (`dcRun_coalesced`).
-/

import Teleproto3.Lib.InTurn
import Teleproto3.Server.DirectRelay

namespace Teleproto3
namespace Server

open Lib

/-! ### The replies -/

/-- The reply that is awaited. -/
inductive Socks5Stage
  | greeting
  | auth
  | connect
  deriving DecidableEq

namespace Socks5Stage

/-- `extra_int`. -/
def state : Socks5Stage → ℕ
  | .greeting => SOCKS5_GREETING_SENT
  | .auth => SOCKS5_AUTH_SENT
  | .connect => SOCKS5_CONNECT_SENT

/-- All of a reply.  Five bytes of a reply to a CONNECT request say how long it is, or that its
address is of no known type. -/
def Complete (stage : Socks5Stage) (reply : Bytes) : Prop :=
  match stage with
  | .greeting | .auth => reply.length = 2
  | .connect => 5 ≤ reply.length ∧ (socks5ReplyLength reply).getD 5 = reply.length

end Socks5Stage

/-- **The replies the handshake goes on with**: no method or, where there are credentials, theirs;
and the success of the credentials. -/
inductive Proceeds (config : Socks5Config) : Socks5Stage → Bytes → Socks5Stage → Prop
  | noAuth : Proceeds config .greeting [0x05, 0x00] .connect
  | userPass (h : config.user ≠ []) : Proceeds config .greeting [0x05, 0x02] .auth
  | authorized (version : UInt8) : Proceeds config .auth [version, 0x00] .connect

/-- **The reply the handshake ends with**: the success of the CONNECT request, with an address of a
known type. -/
def Connected (stage : Socks5Stage) (reply : Bytes) : Prop :=
  stage = .connect ∧ socks5ReplyLength reply = some reply.length ∧ reply.getD 1 0 = 0x00

/-- **The replies of a handshake that succeeds**, from a stage on. -/
inductive Replies (config : Socks5Config) : Socks5Stage → List Bytes → Prop
  | last {stage : Socks5Stage} {reply : Bytes} (h : Connected stage reply) :
      Replies config stage [reply]
  | next {stage stage' : Socks5Stage} {reply : Bytes} {replies : List Bytes}
      (h : Proceeds config stage reply stage') (hrest : Replies config stage' replies) :
      Replies config stage (reply :: replies)

/-- **The replies of a handshake that fails** at the last of them. -/
inductive Refusal (config : Socks5Config) : Socks5Stage → List Bytes → Prop
  | last {stage : Socks5Stage} {reply : Bytes} (hcomplete : stage.Complete reply)
      (hproceeds : ∀ stage', ¬ Proceeds config stage reply stage')
      (hconnected : ¬ Connected stage reply) : Refusal config stage [reply]
  | next {stage stage' : Socks5Stage} {reply : Bytes} {replies : List Bytes}
      (h : Proceeds config stage reply stage') (hrest : Refusal config stage' replies) :
      Refusal config stage (reply :: replies)

variable {config : Socks5Config} {stage stage' : Socks5Stage} {reply reply' stream : Bytes}
  {replies : List Bytes}

theorem socks5AddrLen_pos {atyp len : UInt8} {n : ℕ} (h : socks5AddrLen atyp len = some n) :
    1 ≤ n := by
  unfold socks5AddrLen at h
  split_ifs at h <;> simp only [Option.some.injEq] at h <;> omega

/-- A reply has at least seven bytes. -/
theorem socks5ReplyLength_ge {n : ℕ} (h : socks5ReplyLength reply = some n) : 7 ≤ n := by
  obtain ⟨addrLen, haddr, rfl⟩ := Option.map_eq_some_iff.mp h
  have hpos := socks5AddrLen_pos haddr
  omega

/-- Its first five bytes say how long it is. -/
theorem socks5ReplyLength_congr (h : reply <+: stream) (hlen : 5 ≤ reply.length) :
    socks5ReplyLength reply = socks5ReplyLength stream := by
  rw [socks5ReplyLength, socks5ReplyLength, getD_of_prefix h (by omega : 3 < reply.length) 0,
    getD_of_prefix h (by omega : 4 < reply.length) 0]

/-- And no more than 262. -/
theorem socks5ReplyLength_le {n : ℕ} (h : socks5ReplyLength reply = some n) : n ≤ 262 := by
  obtain ⟨addrLen, haddr, rfl⟩ := Option.map_eq_some_iff.mp h
  have hle : addrLen ≤ 256 := by
    unfold socks5AddrLen at haddr
    have hbyte := (reply.getD 4 0).toNat_lt
    split_ifs at haddr <;> simp only [Option.some.injEq] at haddr <;> omega
  omega

/-- A complete reply has at least two bytes. -/
theorem Socks5Stage.Complete.two_le (h : stage.Complete reply) : 2 ≤ reply.length := by
  cases stage with
  | greeting => exact Eq.ge h
  | auth => exact Eq.ge h
  | connect => exact le_trans (by omega) h.1

/-- **A reply that is waited for is short.** -/
theorem length_lt_of_waits (h : ∀ reply, stage.Complete reply → ¬ reply <+: stream) :
    stream.length < 262 := by
  by_contra hlong
  have htake (n : ℕ) (hn : n ≤ 262) : (stream.take n).length = n :=
    List.length_take_of_le (by omega)
  cases stage with
  | greeting => exact h _ (htake 2 (by omega)) (List.take_prefix 2 stream)
  | auth => exact h _ (htake 2 (by omega)) (List.take_prefix 2 stream)
  | connect =>
    have hlen : 5 ≤ (socks5ReplyLength stream).getD 5 ∧
        (socks5ReplyLength stream).getD 5 ≤ 262 := by
      cases hreply : socks5ReplyLength stream with
      | none => exact ⟨le_rfl, by simp⟩
      | some n =>
        have hge := socks5ReplyLength_ge hreply
        exact ⟨by simp only [Option.getD_some]; omega, socks5ReplyLength_le hreply⟩
    generalize hn : (socks5ReplyLength stream).getD 5 = n at hlen
    have hfive : 5 ≤ (stream.take n).length := by
      rw [htake n hlen.2]
      exact hlen.1
    refine h (stream.take n) ⟨hfive, ?_⟩ (List.take_prefix n stream)
    rw [socks5ReplyLength_congr (List.take_prefix n stream) hfive, hn, htake n hlen.2]

theorem Proceeds.complete (h : Proceeds config stage reply stage') : stage.Complete reply := by
  cases h <;> rfl

theorem Connected.complete (h : Connected stage reply) : stage.Complete reply := by
  obtain ⟨rfl, hlen, -⟩ := h
  have hge := socks5ReplyLength_ge hlen
  exact ⟨by omega, by rw [hlen]; rfl⟩

/-- **A stream begins with one complete reply at most.** -/
theorem complete_unique (h : stage.Complete reply) (h' : stage.Complete reply')
    (hstream : reply <+: stream) (hstream' : reply' <+: stream) : reply = reply' := by
  have hlen : reply.length = reply'.length := by
    cases stage with
    | greeting => exact Eq.trans h (Eq.symm h')
    | auth => exact Eq.trans h (Eq.symm h')
    | connect =>
      rw [← h.2, ← h'.2, socks5ReplyLength_congr hstream h.1,
        socks5ReplyLength_congr hstream' h'.1]
  exact (List.prefix_of_prefix_length_le hstream hstream' hlen.le).eq_of_length hlen

theorem Proceeds.unique {stage₁ stage₂ : Socks5Stage} (h : Proceeds config stage reply stage₁)
    (h' : Proceeds config stage reply stage₂) : stage₁ = stage₂ := by
  cases h <;> cases h' <;> rfl

/-- The CONNECT request is the last. -/
theorem not_proceeds_connect : ¬ Proceeds config .connect reply stage' := fun h => by cases h

theorem Proceeds.not_connected (h : Proceeds config stage reply stage') :
    ¬ Connected stage reply := by
  cases h <;> exact fun hconnected => Socks5Stage.noConfusion hconnected.1

/-! ### Replies that are handled in turn -/

/-- Lists of replies that end in one way: the first is complete, and where the handshake goes on
with it the others decide. -/
structure EndsWith (config : Socks5Config) (P : Socks5Stage → List Bytes → Prop) : Prop where
  not_nil : ∀ stage, ¬ P stage []
  head : ∀ {stage reply replies}, P stage (reply :: replies) → stage.Complete reply
  next : ∀ {stage stage' reply replies}, Proceeds config stage reply stage' →
    (P stage (reply :: replies) ↔ P stage' replies)

theorem replies_endsWith (config : Socks5Config) : EndsWith config (Replies config) where
  not_nil stage h := by cases h
  head h := by
    cases h with
    | last h => exact h.complete
    | next h _ => exact h.complete
  next h := by
    refine ⟨fun hreplies => ?_, .next h⟩
    cases hreplies with
    | last hlast => exact absurd hlast h.not_connected
    | next hnext hreplies => exact hnext.unique h ▸ hreplies

theorem refusal_endsWith (config : Socks5Config) : EndsWith config (Refusal config) where
  not_nil stage h := by cases h
  head h := by
    cases h with
    | last hcomplete => exact hcomplete
    | next h _ => exact h.complete
  next h := by
    refine ⟨fun hreplies => ?_, .next h⟩
    cases hreplies with
    | last _ hproceeds _ => exact absurd h (hproceeds _)
    | next hnext hreplies => exact hnext.unique h ▸ hreplies

/-- **The handshake ends so**, with replies that are handled in turn. -/
def Handled (P : Socks5Stage → List Bytes → Prop) (stage : Socks5Stage) (kept : Bytes)
    (parts : List Bytes) : Prop :=
  ∃ replies, P stage replies ∧ InTurn replies kept parts

section Handled

variable {P : Socks5Stage → List Bytes → Prop} {kept part rest : Bytes} {parts : List Bytes}

/-- A reply that has not arrived is waited for. -/
theorem inTurn_of_waits (hnone : ¬ reply <+: kept ++ part) :
    InTurn (reply :: replies) kept (part :: parts) ↔
      InTurn (reply :: replies) (kept ++ part) parts := by
  rcases Nat.lt_or_ge (kept ++ part).length reply.length with hlt | hle
  · exact inTurn_cons_of_lt hlt
  · refine iff_of_false (fun hturn => ?_) fun hturn => ?_
    · exact hnone ((inTurn_cons_of_le hle).mp hturn).1
    · exact hnone (List.prefix_of_prefix_length_le hturn.head_prefix (List.prefix_append _ _) hle)

/-- One that is complete and has is the one that is handled. -/
theorem inTurn_of_arrived (h : stage.Complete reply) (h' : stage.Complete reply')
    (hinp : reply ++ rest = kept ++ part) :
    InTurn (reply' :: replies) kept (part :: parts) ↔
      reply' = reply ∧ InTurn replies rest parts := by
  have hle : reply.length ≤ (kept ++ part).length := by
    rw [← hinp, List.length_append]
    omega
  have hdrop : (kept ++ part).drop reply.length = rest := by rw [← hinp, List.drop_left]
  constructor
  · intro hturn
    have hprefix : reply <+: kept ++ (part :: parts).flatten := by
      rw [List.flatten_cons, ← List.append_assoc, ← hinp, List.append_assoc]
      exact List.prefix_append _ _
    obtain rfl := complete_unique h' h hturn.head_prefix hprefix
    exact ⟨rfl, hdrop ▸ ((inTurn_cons_of_le hle).mp hturn).2⟩
  · rintro ⟨rfl, hturn⟩
    exact (inTurn_cons_of_le hle).mpr ⟨⟨rest, hinp⟩, hdrop.symm ▸ hturn⟩

/-- Nothing is handled where nothing arrives. -/
theorem not_handled_nil (hP : EndsWith config P) : ¬ Handled P stage kept [] := by
  rintro ⟨_ | ⟨reply, replies⟩, hreplies, hturn⟩
  · exact hP.not_nil stage hreplies
  · exact hturn

/-- A reply that is not complete changes nothing. -/
theorem handled_of_waits (hP : EndsWith config P)
    (hnone : ∀ reply, stage.Complete reply → ¬ reply <+: kept ++ part) :
    Handled P stage kept (part :: parts) ↔ Handled P stage (kept ++ part) parts := by
  refine exists_congr fun replies => and_congr_right fun hreplies => ?_
  cases replies with
  | nil => exact absurd hreplies (hP.not_nil stage)
  | cons reply replies => exact inTurn_of_waits (hnone reply (hP.head hreplies))

/-- A complete reply is the first. -/
theorem handled_of_arrived (hP : EndsWith config P) (h : stage.Complete reply)
    (hinp : reply ++ rest = kept ++ part) : Handled P stage kept (part :: parts) ↔
      ∃ replies, P stage (reply :: replies) ∧ InTurn replies rest parts := by
  constructor
  · rintro ⟨_ | ⟨r, replies⟩, hreplies, hturn⟩
    · exact absurd hreplies (hP.not_nil stage)
    · obtain ⟨rfl, hrest⟩ := (inTurn_of_arrived h (hP.head hreplies) hinp).mp hturn
      exact ⟨replies, hreplies, hrest⟩
  · rintro ⟨replies, hreplies, hturn⟩
    exact ⟨reply :: replies, hreplies, (inTurn_of_arrived h h hinp).mpr ⟨rfl, hturn⟩⟩

/-- **A reply the handshake goes on with** leaves it to the replies behind. -/
theorem handled_of_proceeds (hP : EndsWith config P) (h : Proceeds config stage reply stage')
    (hinp : reply ++ rest = kept ++ part) :
    Handled P stage kept (part :: parts) ↔ Handled P stage' rest parts := by
  rw [handled_of_arrived hP h.complete hinp]
  exact exists_congr fun replies => and_congr_left fun _ => hP.next h

/-- **A reply it fails with** settles it. -/
theorem handled_of_refuses (hcomplete : stage.Complete reply)
    (hproceeds : ∀ stage', ¬ Proceeds config stage reply stage')
    (hconnected : ¬ Connected stage reply) (hinp : reply <+: kept ++ part) (parts : List Bytes) :
    ¬ Handled (Replies config) stage kept (part :: parts) ∧
      Handled (Refusal config) stage kept (part :: parts) := by
  obtain ⟨rest, hinp⟩ := hinp
  rw [handled_of_arrived (replies_endsWith config) hcomplete hinp,
    handled_of_arrived (refusal_endsWith config) hcomplete hinp]
  refine ⟨?_, [], .last hcomplete hproceeds hconnected, inTurn_nil _ _⟩
  rintro ⟨replies, hreplies, -⟩
  cases hreplies with
  | last hlast => exact hconnected hlast
  | next hnext _ => exact hproceeds _ hnext

/-- **And so does the one it ends with.** -/
theorem handled_of_ends (h : Connected stage reply) (hinp : reply <+: kept ++ part)
    (parts : List Bytes) :
    Handled (Replies config) stage kept (part :: parts) ∧
      ¬ Handled (Refusal config) stage kept (part :: parts) := by
  obtain ⟨rest, hinp⟩ := hinp
  rw [handled_of_arrived (replies_endsWith config) h.complete hinp,
    handled_of_arrived (refusal_endsWith config) h.complete hinp]
  refine ⟨⟨[], .last h, inTurn_nil _ _⟩, ?_⟩
  rintro ⟨replies, hreplies, -⟩
  cases hreplies with
  | last _ _ hconnected => exact hconnected h
  | next hnext _ => exact hnext.not_connected h

end Handled

/-! ### A step of the handshake -/

section Steps

variable {W : Type*} {c : Conn W}

/-- What a step may write: what is left in `in`, the next request, and the stage. -/
def OnlyShakes (c c' : Conn W) : Prop := c' = { c with inp := c'.inp, out := c'.out, rpc := c'.rpc }

/-- **What a step of the handshake can do**: the reply is not complete; or it is, and the handshake
goes on, fails or ends. -/
inductive Socks5Step (config : Socks5Config) (stage : Socks5Stage) (c : Conn W) :
    Conn W × Socks5Result → Prop
  | waits (h : ∀ reply, stage.Complete reply → ¬ reply <+: c.inp) :
      Socks5Step config stage c (c, .inProgress)
  | proceeds {stage' : Socks5Stage} {reply : Bytes} {c' : Conn W}
      (h : Proceeds config stage reply stage') (hinp : reply ++ c'.inp = c.inp)
      (hstate : c'.rpc.extraInt = stage'.state) (honly : OnlyShakes c c') :
      Socks5Step config stage c (c', .inProgress)
  | refuses {reply : Bytes} {c' : Conn W} (hcomplete : stage.Complete reply)
      (hproceeds : ∀ stage', ¬ Proceeds config stage reply stage')
      (hconnected : ¬ Connected stage reply) (hinp : reply <+: c.inp) (honly : OnlyShakes c c') :
      Socks5Step config stage c (c', .failed)
  | ends {reply : Bytes} {c' : Conn W} (h : Connected stage reply) (hinp : reply ++ c'.inp = c.inp)
      (hstate : c'.rpc.extraInt = SOCKS5_NONE) (honly : OnlyShakes c c') :
      Socks5Step config stage c (c', .complete)

/-- A reply of two bytes that has not arrived. -/
theorem Socks5Step.waits_two (hstage : ∀ reply, stage.Complete reply → reply.length = 2)
    (hshort : c.inp.length < 2) : Socks5Step config stage c (c, .inProgress) := by
  refine .waits fun reply hreply hprefix => ?_
  have hlen := hstage reply hreply
  have hle := hprefix.length_le
  omega

/-- A reply of two bytes that has. -/
theorem exists_two {bs : Bytes} (h : ¬ bs.length < 2) : ∃ a b rest, bs = a :: b :: rest := by
  match bs with
  | [] => simp at h
  | [_] => simp at h
  | a :: b :: rest => exact ⟨a, b, rest, rfl⟩

theorem socks5Greeted_step (config : Socks5Config) (c : Conn W) :
    Socks5Step config .greeting c (socks5Greeted config c) := by
  rw [socks5Greeted]
  by_cases hshort : c.inp.length < 2
  · rw [if_pos hshort]
    exact .waits_two (fun reply h => h) hshort
  · rw [if_neg hshort]
    obtain ⟨version, method, rest, hinp⟩ := exists_two hshort
    have htake : [version, method] ++ (c.skipData 2).inp = c.inp := by
      rw [Conn.skipData_inp, hinp]
      rfl
    have hcomplete : Socks5Stage.greeting.Complete [version, method] := rfl
    have hrefuses (h : ∀ stage', ¬ Proceeds config .greeting [version, method] stage') :
        Socks5Step config .greeting c (c.skipData 2, .failed) :=
      .refuses hcomplete h (fun hconnected => Socks5Stage.noConfusion hconnected.1)
        ⟨_, htake⟩ rfl
    simp only [hinp, List.getD_cons_zero, List.getD_cons_succ]
    split_ifs with hversion hnone huser hcred
    · exact hrefuses fun stage' h => by cases h <;> exact hversion rfl
    · have hproceeds : Proceeds config .greeting [version, method] .connect := by
        rw [not_not.mp hversion, hnone]
        exact .noAuth
      exact .proceeds hproceeds htake rfl rfl
    · refine hrefuses fun stage' h => ?_
      cases h with
      | noAuth => exact hnone rfl
      | userPass h => exact h hcred
    · have hproceeds : Proceeds config .greeting [version, method] .auth := by
        rw [not_not.mp hversion, huser]
        exact .userPass hcred
      exact .proceeds hproceeds htake rfl rfl
    · refine hrefuses fun stage' h => ?_
      cases h with
      | noAuth => exact hnone rfl
      | userPass => exact huser rfl

theorem socks5Authorized_step (config : Socks5Config) (c : Conn W) :
    Socks5Step config .auth c (socks5Authorized config c) := by
  rw [socks5Authorized]
  by_cases hshort : c.inp.length < 2
  · rw [if_pos hshort]
    exact .waits_two (fun reply h => h) hshort
  · rw [if_neg hshort]
    obtain ⟨version, status, rest, hinp⟩ := exists_two hshort
    have htake : [version, status] ++ (c.skipData 2).inp = c.inp := by
      rw [Conn.skipData_inp, hinp]
      rfl
    have hcomplete : Socks5Stage.auth.Complete [version, status] := rfl
    simp only [hinp, List.getD_cons_zero, List.getD_cons_succ]
    split_ifs with hstatus
    · refine .refuses hcomplete (fun stage' h => ?_)
        (fun hconnected => Socks5Stage.noConfusion hconnected.1) ⟨_, htake⟩ rfl
      cases h
      exact hstatus rfl
    · have hproceeds : Proceeds config .auth [version, status] .connect := by
        rw [not_not.mp hstatus]
        exact .authorized version
      exact .proceeds hproceeds htake rfl rfl

theorem socks5Connected_step (config : Socks5Config) (c : Conn W) :
    Socks5Step config .connect c (socks5Connected c) := by
  have hproceeds (reply : Bytes) (stage' : Socks5Stage) :
      ¬ Proceeds config .connect reply stage' := not_proceeds_connect
  rw [socks5Connected]
  by_cases hshort : c.inp.length < 5
  · rw [if_pos hshort]
    refine .waits fun reply hreply hprefix => ?_
    have hle := hprefix.length_le
    exact absurd hreply.1 (by omega)
  · rw [if_neg hshort]
    have hpeek (n : ℕ) (hn : 5 ≤ n) :
        socks5ReplyLength (c.inp.take n) = socks5ReplyLength c.inp :=
      socks5ReplyLength_congr (List.take_prefix n c.inp) (by rw [List.length_take]; omega)
    cases haddr : socks5AddrLen (c.inp.getD 3 0) (c.inp.getD 4 0) with
    | none =>
      -- Five bytes are enough to say that the address is of no known type.
      have hnone : socks5ReplyLength (c.inp.take 5) = none := by
        rw [hpeek 5 le_rfl, socks5ReplyLength, haddr]
        rfl
      have hlen : (c.inp.take 5).length = 5 := List.length_take_of_le (not_lt.mp hshort)
      refine .refuses ⟨hlen.ge, ?_⟩ (hproceeds _) (fun hconnected => ?_)
        (List.take_prefix 5 c.inp) rfl
      · rw [hnone, hlen]
        rfl
      · exact absurd (hnone.symm.trans hconnected.2.1) (by simp)
    | some addrLen =>
      have htotal : socks5ReplyLength c.inp = some (4 + addrLen + 2) := by
        rw [socks5ReplyLength, haddr]
        rfl
      have hge := socks5ReplyLength_ge htotal
      dsimp only
      generalize 4 + addrLen + 2 = total at htotal hge
      by_cases hpart : c.inp.length < total
      · rw [if_pos hpart]
        refine .waits fun reply hreply hprefix => ?_
        have hle := hprefix.length_le
        have hlen := hreply.2
        rw [socks5ReplyLength_congr hprefix hreply.1, htotal, Option.getD_some] at hlen
        omega
      · rw [if_neg hpart]
        have hlen : (c.inp.take total).length = total := List.length_take_of_le (not_lt.mp hpart)
        have hwhole : socks5ReplyLength (c.inp.take total) = some total := by
          rw [hpeek total (by omega), htotal]
        have hstatus : c.inp.getD 1 0 = (c.inp.take total).getD 1 0 :=
          Eq.symm <| getD_of_prefix (List.take_prefix total c.inp) (by omega) 0
        have htake : c.inp.take total ++ (c.skipData total).inp = c.inp :=
          List.take_append_drop total c.inp
        split_ifs with hfail
        · refine .refuses ⟨by omega, ?_⟩ (hproceeds _) (fun hconnected => ?_) ⟨_, htake⟩ rfl
          · rw [hwhole, hlen]
            rfl
          · exact hfail (hstatus.trans hconnected.2.2)
        · refine .ends ⟨rfl, ?_, ?_⟩ htake rfl rfl
          · rw [hwhole, hlen]
          · exact hstatus.symm.trans (not_not.mp hfail)

/-- **A step of the handshake is one of these.** -/
theorem socks5HandleResponse_step (config : Socks5Config) (hstate : c.rpc.extraInt = stage.state) :
    Socks5Step config stage c (socks5HandleResponse config c) := by
  unfold socks5HandleResponse
  rw [hstate]
  cases stage with
  | greeting => exact socks5Greeted_step config c
  | auth => exact socks5Authorized_step config c
  | connect => exact socks5Connected_step config c

end Steps

/-! ### The reader -/

section Reads

variable {W : Type*} (env : DirectEnv W)

/-- What a call of the reader finds on a connection to a data centre: the bytes that have arrived,
the client as it is then, what decryption delivers where there is a cipher, and how many turns the
reader may take behind its first. -/
structure DcArrival (W : Type*) where
  raw : Bytes
  client : Conn W
  decrypted : Bytes
  more : ℕ

/-- A call of the reader on what arrives. -/
def dcRead (c : Conn (Conn W)) (a : DcArrival W) : ReaderExit (Conn W) :=
  jobRun (directDcMethods env a.decrypted) (c.over a.client) [a.raw] (a.more + 1)

/-- The connection after these arrivals. -/
def dcRun (c : Conn (Conn W)) : List (DcArrival W) → Except ReaderFault (Conn (Conn W))
  | [] => .ok c
  | a :: arrivals =>
    match dcRead env c a with
    | .error fault => .error fault
    | .ok r => dcRun r.conn arrivals

/-- A connection that awaits a reply: it works, and no init has been sent. -/
structure Shakes (stage : Socks5Stage) (c : Conn (Conn W)) : Prop where
  live : c.cError = false ∧ c.cFailed = false ∧ c.cNetFailed = false ∧ c.cStopRead = false
  status : c.status ≠ .error
  mode : c.transportMode ≠ .httpStream
  skipBytes : c.skipBytes = 0
  isJob : c.extra.isJob = true
  crypto : c.crypto = none
  outP : c.outP = []
  state : c.rpc.extraInt = stage.state

/-- The handshake has failed, and no init has been sent. -/
structure HandshakeFailed (c : Conn (Conn W)) : Prop where
  cError : c.cError = true
  crypto : c.crypto = none
  outP : c.outP = []

/-- The init has been sent. -/
structure InitSent (c : Conn (Conn W)) : Prop where
  crypto : c.crypto.isSome = true
  skipBytes : c.skipBytes = 0
  isJob : c.extra.isJob = true
  state : c.rpc.extraInt = SOCKS5_NONE

/-- An init as it is put into `out_p`. -/
def IsSentInit (prim : Primitives) (bytes : Bytes) : Prop :=
  ∃ (random : Bytes) (clientTag : ℕ) (targetDc : ℤ),
    let init := obfs2Init random clientTag targetDc
    let write := prim.aes256Ctr (obfs2InitKeys init).writeKey (obfs2InitKeys init).writeIv
    bytes = init.take 56 ++ ((xorAt write 0 init).drop 56).take 8

variable {env} {c : Conn (Conn W)}

/-- Ahead of the init there is nothing in `out_p`. -/
theorem tcpDirectDcSendObfs2Init_outP (h : c.outP = []) :
    IsSentInit env.prim (tcpDirectDcSendObfs2Init env c).outP := by
  refine ⟨(env.randInit c.world.world).1, c.rpc.extraInt3, c.rpc.extraInt4, ?_⟩
  unfold tcpDirectDcSendObfs2Init
  dsimp only
  split
  · exact congrArg (· ++ _) h
  · exact congrArg (· ++ _) h

theorem Shakes.over (h : Shakes stage c) (client : Conn W) : Shakes stage (c.over client) :=
  ⟨h.live, h.status, h.mode, h.skipBytes, h.isJob, h.crypto, h.outP, h.state⟩

theorem Shakes.deliver (h : Shakes stage c) (bytes : Bytes) : Shakes stage (c.deliver bytes) :=
  ⟨h.live, h.status, h.mode, h.skipBytes, h.isJob, h.crypto, h.outP, h.state⟩

/-- What a step of the handshake leaves of it. -/
theorem Shakes.step (h : Shakes stage c) {c' : Conn (Conn W)} (honly : OnlyShakes c c')
    (hstate : c'.rpc.extraInt = stage'.state) : Shakes stage' c' := by
  rw [honly] at hstate ⊢
  exact ⟨h.live, h.status, h.mode, h.skipBytes, h.isJob, h.crypto, h.outP, hstate⟩

/-- What arrives is put into `in`. -/
theorem Shakes.readerFront (h : Shakes stage c) (m : ReaderMethods (Conn W)) (raw : Bytes) :
    readerFront m c [raw] = .ok (c.deliver raw) := by
  obtain ⟨herror, hfailed, hnet, hstop⟩ := h.live
  have hfill : readerFill c [raw] = c.deliver raw := by
    unfold readerFill
    rw [if_neg (by simp [h.crypto, h.mode]), List.flatten_singleton]
    rfl
  have hd := h.deliver raw
  have hdecode : readerDecode m (c.deliver raw) = .ok (c.deliver raw) := by
    unfold readerDecode
    rw [if_neg (by simp [hd.crypto]), if_neg hd.mode]
  have hflags : readerFlags (c.deliver raw) = .ok (c.deliver raw) := by
    unfold readerFlags
    rw [if_neg (by simp [Conn.deliver, herror, hfailed, hnet]),
      if_neg (by simp [Conn.deliver, hstop])]
  rw [Server.readerFront, hfill, hdecode]
  simp only [Except.bind, hflags, readerSkip_none hd.skipBytes]

/-- Bytes that are there are shown to `parse_execute`. -/
theorem Shakes.not_stops (h : Shakes stage c) (hinp : c.inp ≠ [])
    (hfits : c.inp.length < 2 ^ 31) : ¬ ReaderStops c := by
  obtain ⟨herror, hfailed, hnet, hstop⟩ := h.live
  have hpos := List.length_pos_of_ne_nil hinp
  have htotal : totalBytes c.inp = c.inp.length := wrap32_of_fits (by omega) (by omega)
  unfold ReaderStops
  rw [htotal]
  simp [h.skipBytes, herror, hfailed, hnet, hstop, h.status, hinp]

/-- A reader whose last loop goes on after its first turn. -/
theorem cpuTcpServerReader_of_again {m : ReaderMethods (Conn W)} {d : Conn (Conn W)}
    {queue : List Bytes} {s : Conn (Conn W) × List ℤ}
    (hfront : Server.readerFront m c queue = .ok d) (hturn : readerTurn m (d, []) = .again s)
    (n : ℕ) :
    cpuTcpServerReader m c queue (n + 1) = match loopFor (readerTurn m) n s with
      | .done exit => exit
      | .again (c, results) => .ok ⟨c, 0, results⟩ := by
  simp only [cpuTcpServerReader, hfront, loopFor_of_again hturn]
  cases loopFor (readerTurn m) n s <;> rfl

/-! #### Behind the init -/

/-- A call behind the handshake does not fail an assertion. -/
theorem tcpDirectDcRelay_ok (env : DirectEnv W) (h : c.extra.isJob = true) :
    ∃ p, tcpDirectDcRelay env c = .ok p := by
  cases hextra : c.extra with
  | null =>
    rw [hextra] at h
    exact Bool.noConfusion h
  | methods =>
    rw [hextra] at h
    exact Bool.noConfusion h
  | job e =>
    unfold tcpDirectDcRelay tcpDirectRelay
    simp only [Conn.over, hextra]
    split_ifs <;> exact ⟨_, rfl⟩

/-- **Behind the init no call of `parse_execute` undoes it.** -/
theorem InitSent.parse (h : InitSent c) :
    Ends (fun p => InitSent (storeResult p.1 p.2)) (fun _ => False)
      (tcpDirectDcParseExecute env c) := by
  have hdone : ¬ c.rpc.extraInt > 0 := by
    rw [h.state]
    exact Nat.lt_irrefl 0
  obtain ⟨p, hp⟩ := tcpDirectDcRelay_ok env h.isJob
  have hparse : tcpDirectDcParseExecute env c = .ok p := by
    rw [tcpDirectDcParseExecute, if_neg hdone, hp]
  have hcall : DcCall env c p.1 p.2 := .of_parse hparse
  have hmoves := hcall.movesFrom h.state
  rw [hparse]
  show InitSent (storeResult p.1 p.2)
  rw [storeResult, if_pos hcall.res]
  refine ⟨?_, ?_, ?_, ?_⟩
  · rw [hmoves.crypto]
    exact h.crypto
  · rw [hmoves.skipBytes]
    exact h.skipBytes
  · rw [hmoves.isJob]
    exact h.isJob
  · rw [hmoves.rpc]
    exact h.state

/-- The rest of the reader's loop. -/
theorem InitSent.loop (h : InitSent c) (decrypted : Bytes) (more : ℕ) (results : List ℤ) :
    ∃ r, (match loopFor (readerTurn (directDcMethods env decrypted)) more (c, results) with
        | .done exit => exit
        | .again (c, results) => .ok ⟨c, 0, results⟩) = .ok r ∧ InitSent r.conn := by
  have hturn (s : Conn (Conn W) × List ℤ) (hs : InitSent s.1) :=
    readerTurn_leaves (m := directDcMethods env decrypted) (I := InitSent) (P := fun _ => True)
      (F := fun _ => False) (fun d hd _ _ => hd.parse) hs fun _ => trivial
  have hloop := loopFor_inv_of_eachTurnFor (f := readerTurn (directDcMethods env decrypted))
    (I := fun s => InitSent s.1) (P := fun _ => True) (Q := Leaves InitSent fun _ => False)
    (fun s s' hs _ hagain => (hturn s hs).1 s' hagain)
    (fun s exit hs _ hdone => (hturn s hs).2 exit hdone) (s := (c, results)) (n := more) h
    (eachTurnFor_of_forall (fun _ => trivial) _ _)
  cases hrun : loopFor (readerTurn (directDcMethods env decrypted)) more (c, results) with
  | done exit =>
    cases exit with
    | error fault => exact absurd (hloop.2 _ hrun) not_false
    | ok r => exact ⟨r, rfl, hloop.2 _ hrun⟩
  | again s => exact ⟨_, rfl, hloop.1 s hrun⟩

/-- **Behind the init no read undoes it.** -/
theorem InitSent.read (env : DirectEnv W) (h : InitSent c) (a : DcArrival W) :
    ∃ r, dcRead env c a = .ok r ∧ InitSent r.conn := by
  have hdelivers : Delivers (directDcMethods env a.decrypted) a.decrypted := fun _ => rfl
  have hleaves : Leaves InitSent (fun _ => False) (dcRead env c a) :=
    jobRun_leaves (P := fun _ => True)
      (fun d queue hd => by
        rw [readerFill_crypto hd.crypto]
        exact ⟨hd.crypto, hd.skipBytes, hd.isJob, hd.state⟩)
      (fun d hd => by
        rw [readerDecode_crypto hd.crypto hdelivers]
        exact ⟨hd.crypto, hd.skipBytes, hd.isJob, hd.state⟩)
      (fun d hd => by
        rw [readerSkip_none hd.skipBytes]
        exact hd)
      (fun d hd _ _ => hd.parse) ⟨h.crypto, h.skipBytes, h.isJob, h.state⟩
      fun _ d _ => eachTurnFor_of_forall (fun _ _ => trivial) _ _
  cases hread : dcRead env c a with
  | error fault =>
    rw [hread] at hleaves
    exact absurd hleaves not_false
  | ok r =>
    rw [hread] at hleaves
    exact ⟨r, rfl, hleaves⟩

/-- A connection that has failed is left by the reader's loop, -/
theorem HandshakeFailed.loop (h : HandshakeFailed c) (m : ReaderMethods (Conn W)) (more : ℕ)
    (results : List ℤ) :
    (match loopFor (readerTurn m) more (c, results) with
      | .done exit => exit
      | .again (c, results) => .ok ⟨c, 0, results⟩) = .ok ⟨c, 0, results⟩ := by
  cases more with
  | zero => rfl
  | succ more => rw [loopFor_of_done (readerTurn_of_stops (Or.inr (Or.inl h.cError)))]

/-- and not read any more. -/
theorem HandshakeFailed.read (env : DirectEnv W) (h : HandshakeFailed c) (a : DcArrival W) :
    dcRead env c a = .ok ⟨c.over a.client, 0, []⟩ := by
  rw [dcRead, jobRun, if_pos (show (c.over a.client).cError = true from h.cError)]

/-! #### Ahead of the init -/

variable (env stage) in
/-- **What a read can do** with what is in `in` then.  Where the reader takes no turn behind the
one that sends the init, `in` and `out_p` are seen as it left them. -/
inductive DcArrives (stream : Bytes) (more : ℕ) : ReaderResult (Conn W) → Prop
  | waits {r : ReaderResult (Conn W)} (h : ∀ reply, stage.Complete reply → ¬ reply <+: stream)
      (hr : Shakes stage r.conn) (hinp : r.conn.inp = stream) : DcArrives stream more r
  | proceeds {r : ReaderResult (Conn W)} {stage' : Socks5Stage} {reply : Bytes}
      (h : Proceeds env.socks5 stage reply stage') (hr : Shakes stage' r.conn)
      (hinp : reply ++ r.conn.inp = stream) : DcArrives stream more r
  | refuses {r : ReaderResult (Conn W)} {reply : Bytes} (hcomplete : stage.Complete reply)
      (hproceeds : ∀ stage', ¬ Proceeds env.socks5 stage reply stage')
      (hconnected : ¬ Connected stage reply) (hinp : reply <+: stream)
      (hr : HandshakeFailed r.conn) : DcArrives stream more r
  | ends {r : ReaderResult (Conn W)} {reply : Bytes} (h : Connected stage reply)
      (hinp : reply <+: stream) (hr : InitSent r.conn)
      (hleft : more = 0 → reply ++ r.conn.inp = stream ∧ IsSentInit env.prim r.conn.outP) :
      DcArrives stream more r

/-- A call of `parse_execute` handles a reply. -/
theorem Shakes.parse (env : DirectEnv W) (h : Shakes stage c) :
    tcpDirectDcParseExecute env c = match socks5HandleResponse env.socks5 c with
      | (c, .inProgress) => .ok (c, NEED_MORE_BYTES)
      | (c, .failed) => .ok (failConnection c (-1), 0)
      | (c, .complete) => .ok (tcpDirectDcSendObfs2Init env c, 0) := by
  have hsocks : c.rpc.extraInt > 0 := by
    rw [h.state]
    cases stage <;> exact Nat.succ_pos _
  unfold tcpDirectDcParseExecute
  exact if_pos hsocks

/-- **A read ahead of the init is one of these.** -/
theorem Shakes.read (env : DirectEnv W) (h : Shakes stage c) (a : DcArrival W)
    (hfits : (c.inp ++ a.raw).length < 2 ^ 31) :
    ∃ r, dcRead env c a = .ok r ∧ DcArrives stage env (c.inp ++ a.raw) a.more r := by
  have hover := h.over a.client
  have hd := hover.deliver a.raw
  have hfront := hover.readerFront (directDcMethods env a.decrypted) a.raw
  have hread (exit : ReaderExit (Conn W)) : dcRead env c a = exit ↔
      cpuTcpServerReader (directDcMethods env a.decrypted) (c.over a.client) [a.raw] (a.more + 1) =
        exit := by
    rw [dcRead, jobRun_of_live hover.live.1]
  have hinp : ((c.over a.client).deliver a.raw).inp = c.inp ++ a.raw := rfl
  rw [← hinp] at hfits ⊢
  generalize (c.over a.client).deliver a.raw = d at hd hfront hfits
  by_cases hne : d.inp = []
  · have hdone := cpuTcpServerReader_of_done hfront (readerTurn_of_stops (.of_nil hne)) a.more
    refine ⟨_, (hread _).mpr hdone, .waits (fun reply hreply hprefix => ?_) hd rfl⟩
    have hle := hprefix.length_le
    have hge := hreply.two_le
    rw [hne, List.length_nil] at hle
    omega
  have hstops : ¬ ReaderStops d := hd.not_stops hne hfits
  have hparse := hd.parse env
  have hstep := socks5HandleResponse_step env.socks5 hd.state
  generalize socks5HandleResponse env.socks5 d = res at hstep hparse
  cases hstep with
  | waits hnone =>
    have hcall : (directDcMethods env a.decrypted).parseExecute d = .ok (d, NEED_MORE_BYTES) :=
      hparse
    have hdone := cpuTcpServerReader_of_done hfront (readerTurn_of_needMore hstops hcall) a.more
    exact ⟨_, (hread _).mpr hdone, .waits hnone hd rfl⟩
  | @proceeds stage' reply d' hproceeds hreply hstate honly =>
    have hcall : (directDcMethods env a.decrypted).parseExecute d = .ok (d', NEED_MORE_BYTES) :=
      hparse
    have hdone := cpuTcpServerReader_of_done hfront (readerTurn_of_needMore hstops hcall) a.more
    exact ⟨_, (hread _).mpr hdone, .proceeds hproceeds (hd.step honly hstate) hreply⟩
  | @refuses reply d' hcomplete hproceeds hconnected hreply honly =>
    have hcall : (directDcMethods env a.decrypted).parseExecute d =
        .ok (failConnection d' (-1), 0) := hparse
    have hagain := cpuTcpServerReader_of_again hfront (readerTurn_of_zero hstops hcall) a.more
    have hfailed : HandshakeFailed (failConnection d' (-1)) := by
      rw [honly]
      exact ⟨rfl, hd.crypto, hd.outP⟩
    exact ⟨_, (hread _).mpr (hagain.trans (hfailed.loop _ _ _)),
      .refuses hcomplete hproceeds hconnected hreply hfailed⟩
  | @ends reply d' hconnected hreply hstate honly =>
    have hcall : (directDcMethods env a.decrypted).parseExecute d =
        .ok (tcpDirectDcSendObfs2Init env d', 0) := hparse
    have hagain := cpuTcpServerReader_of_again hfront (readerTurn_of_zero hstops hcall) a.more
    obtain ⟨-, hcrypto, hextra, hleft, hskip, hrpc, -⟩ := tcpDirectDcSendObfs2Init_spec env d'
    have hsent : InitSent (tcpDirectDcSendObfs2Init env d') := by
      refine ⟨hcrypto, ?_, ?_, ?_⟩
      · rw [hskip, honly]
        exact hd.skipBytes
      · rw [hextra, honly]
        exact hd.isJob
      · rw [hrpc]
        exact hstate
    obtain ⟨r, hloop, hr⟩ := hsent.loop a.decrypted a.more ([] ++ [0])
    refine ⟨r, (hread _).mpr (hagain.trans hloop),
      .ends hconnected ⟨_, hreply⟩ hr fun hmore => ?_⟩
    rw [hmore] at hloop
    obtain rfl := Except.ok.inj hloop
    have hout : d'.outP = [] := by
      rw [honly]
      exact hd.outP
    exact ⟨hleft.symm ▸ hreply, tcpDirectDcSendObfs2Init_outP hout⟩

/-! ### A run -/

/-- What arrives at once is well below what an `int` holds. -/
def Fits (arrivals : List (DcArrival W)) : Prop := ∀ a ∈ arrivals, a.raw.length ≤ 2 ^ 29

/-- What may be in `in` while a reply is awaited: what came with the replies before it. -/
def Socks5Stage.room (stage : Socks5Stage) : ℕ := 262 + (stage.state - 1) * 2 ^ 29

theorem Socks5Stage.le_room (stage : Socks5Stage) : 262 ≤ stage.room := Nat.le_add_right _ _

/-- What is awaited and what arrives fit together. -/
theorem Socks5Stage.fits_of_room {kept part : Bytes} (hkept : kept.length ≤ stage.room)
    (hpart : part.length ≤ 2 ^ 29) : (kept ++ part).length < 2 ^ 31 := by
  have hroom : stage.room ≤ 262 + 2 * 2 ^ 29 := by cases stage <;> decide
  rw [List.length_append]
  omega

/-- Each reply makes room for what came with it. -/
theorem Proceeds.room (h : Proceeds config stage reply stage') :
    stage.room + 2 ^ 29 ≤ stage'.room := by
  cases h <;> decide

/-- What is left behind it is within that room. -/
theorem Proceeds.kept_le (h : Proceeds config stage reply stage') {kept part rest : Bytes}
    (hkept : kept.length ≤ stage.room) (hpart : part.length ≤ 2 ^ 29)
    (hinp : reply ++ rest = kept ++ part) : rest.length ≤ stage'.room := by
  have hroom := h.room
  have hlen := congrArg List.length hinp
  rw [List.length_append, List.length_append] at hlen
  omega

/-- The parts of the stream. -/
def rawParts (arrivals : List (DcArrival W)) : List Bytes := arrivals.map DcArrival.raw

theorem dcRun_of_read {a : DcArrival W} {arrivals : List (DcArrival W)}
    {r : ReaderResult (Conn W)} (h : dcRead env c a = .ok r) :
    dcRun env c (a :: arrivals) = dcRun env r.conn arrivals := by
  rw [dcRun, h]

theorem InitSent.run (env : DirectEnv W) (h : InitSent c) (arrivals : List (DcArrival W)) :
    ∃ d, dcRun env c arrivals = .ok d ∧ InitSent d := by
  induction arrivals generalizing c with
  | nil => exact ⟨c, rfl, h⟩
  | cons a arrivals ih =>
    obtain ⟨r, hread, hr⟩ := h.read env a
    rw [dcRun_of_read hread]
    exact ih hr

theorem HandshakeFailed.run (env : DirectEnv W) (h : HandshakeFailed c)
    (arrivals : List (DcArrival W)) :
    ∃ d, dcRun env c arrivals = .ok d ∧ HandshakeFailed d := by
  induction arrivals generalizing c with
  | nil => exact ⟨c, rfl, h⟩
  | cons a arrivals ih =>
    rw [dcRun_of_read (h.read env a)]
    exact ih ⟨h.cError, h.crypto, h.outP⟩

/-- What a run comes to. -/
structure RunEnds (config : Socks5Config) (stage : Socks5Stage) (kept : Bytes)
    (parts : List Bytes) (d : Conn (Conn W)) : Prop where
  sends : d.crypto.isSome = true ↔ Handled (Replies config) stage kept parts
  fails : d.cError = true ∧ d.crypto = none ↔ Handled (Refusal config) stage kept parts
  silent : d.crypto = none → d.outP = []

/-- **A run of the handshake** sends the init or fails as its replies say. -/
theorem Shakes.run (env : DirectEnv W) (h : Shakes stage c) (hkept : c.inp.length ≤ stage.room)
    {arrivals : List (DcArrival W)} (hfits : Fits arrivals) :
    ∃ d, dcRun env c arrivals = .ok d ∧
      RunEnds env.socks5 stage c.inp (rawParts arrivals) d := by
  induction arrivals generalizing c stage with
  | nil =>
    refine ⟨c, rfl, ?_, ?_, fun _ => h.outP⟩
    · refine iff_of_false ?_ (not_handled_nil (replies_endsWith env.socks5))
      rw [h.crypto]
      exact Bool.false_ne_true
    · refine iff_of_false ?_ (not_handled_nil (refusal_endsWith env.socks5))
      rw [h.live.1]
      exact fun hfailed => Bool.false_ne_true hfailed.1
  | cons a arrivals ih =>
    have hparts : rawParts (a :: arrivals) = a.raw :: rawParts arrivals := rfl
    rw [hparts]
    obtain ⟨hpart, hfits⟩ := List.forall_mem_cons.mp hfits
    obtain ⟨r, hread, harrives⟩ := h.read env a (Socks5Stage.fits_of_room hkept hpart)
    rw [dcRun_of_read hread]
    cases harrives with
    | waits hnone hr hinp =>
      have hshort : r.conn.inp.length < 262 := by
        rw [hinp]
        exact length_lt_of_waits hnone
      obtain ⟨d, hd, hends⟩ := ih hr (hshort.le.trans stage.le_room) hfits
      rw [hinp] at hends
      exact ⟨d, hd, hends.sends.trans (handled_of_waits (replies_endsWith _) hnone).symm,
        hends.fails.trans (handled_of_waits (refusal_endsWith _) hnone).symm, hends.silent⟩
    | proceeds hproceeds hr hinp =>
      obtain ⟨d, hd, hends⟩ := ih hr (hproceeds.kept_le hkept hpart hinp) hfits
      exact ⟨d, hd,
        hends.sends.trans (handled_of_proceeds (replies_endsWith _) hproceeds hinp).symm,
        hends.fails.trans (handled_of_proceeds (refusal_endsWith _) hproceeds hinp).symm,
        hends.silent⟩
    | refuses hcomplete hproceeds hconnected hinp hr =>
      obtain ⟨d, hd, hfailed⟩ := hr.run env arrivals
      obtain ⟨hno, hyes⟩ := handled_of_refuses hcomplete hproceeds hconnected hinp
        (rawParts arrivals)
      refine ⟨d, hd, iff_of_false ?_ hno, iff_of_true ⟨hfailed.cError, hfailed.crypto⟩ hyes,
        fun _ => hfailed.outP⟩
      rw [hfailed.crypto]
      exact Bool.false_ne_true
    | ends hconnected hinp hr _ =>
      obtain ⟨d, hd, hsent⟩ := hr.run env arrivals
      obtain ⟨hyes, hno⟩ := handled_of_ends hconnected hinp (rawParts arrivals)
      have hsome : d.crypto ≠ none := by
        intro hnone
        have hcrypto := hsent.crypto
        rw [hnone] at hcrypto
        exact Bool.false_ne_true hcrypto
      exact ⟨d, hd, iff_of_true hsent.crypto hyes,
        iff_of_false (fun hfailed => hsome hfailed.2) hno, fun hnone => absurd hnone hsome⟩

/-- **What is left when the init is sent** is what is behind the replies. -/
theorem Shakes.run_left (h : Shakes stage c) {before : List (DcArrival W)} {a : DcArrival W}
    (hmore : a.more = 0) (hkept : c.inp.length ≤ stage.room) (hfits : Fits (before ++ [a]))
    {c₀ d : Conn (Conn W)} (hbefore : dcRun env c before = .ok c₀) (hnone : c₀.crypto = none)
    (hd : dcRun env c (before ++ [a]) = .ok d) (hsent : d.crypto.isSome = true) :
    IsSentInit env.prim d.outP ∧ ∃ replies, Replies env.socks5 stage replies ∧
      InTurn replies c.inp (rawParts (before ++ [a])) ∧
      replies.flatten ++ d.inp = c.inp ++ (rawParts (before ++ [a])).flatten := by
  have hwaits {e : Conn (Conn W)} (he : e.crypto = none) (hsome : e.crypto.isSome = true) :
      False := by
    rw [he] at hsome
    exact Bool.false_ne_true hsome
  induction before generalizing c stage with
  | nil =>
    have hparts : rawParts ([] ++ [a]) = [a.raw] := rfl
    rw [hparts, List.flatten_singleton]
    have hpart := hfits a (List.mem_append_right _ List.mem_cons_self)
    obtain ⟨r, hread, harrives⟩ := h.read env a (Socks5Stage.fits_of_room hkept hpart)
    rw [List.nil_append, dcRun_of_read hread] at hd
    obtain rfl := Except.ok.inj hd
    cases harrives with
    | waits _ hr _ => exact (hwaits hr.crypto hsent).elim
    | proceeds _ hr _ => exact (hwaits hr.crypto hsent).elim
    | refuses _ _ _ _ hr => exact (hwaits hr.crypto hsent).elim
    | @ends reply hconnected hinp hr hleft =>
      obtain ⟨hleft, hinit⟩ := hleft hmore
      refine ⟨hinit, [reply], .last hconnected, ?_, ?_⟩
      · exact (inTurn_of_arrived hconnected.complete hconnected.complete hleft).mpr
          ⟨rfl, inTurn_nil _ _⟩
      · rw [List.flatten_singleton]
        exact hleft
  | cons b before ih =>
    have hparts : rawParts (b :: before ++ [a]) = b.raw :: rawParts (before ++ [a]) := rfl
    rw [hparts, List.flatten_cons, ← List.append_assoc]
    obtain ⟨hpart, hfits⟩ := List.forall_mem_cons.mp hfits
    obtain ⟨r, hread, harrives⟩ := h.read env b (Socks5Stage.fits_of_room hkept hpart)
    rw [dcRun_of_read hread] at hbefore
    rw [List.cons_append, dcRun_of_read hread] at hd
    cases harrives with
    | waits hreplies hr hinp =>
      have hshort : r.conn.inp.length < 262 := by
        rw [hinp]
        exact length_lt_of_waits hreplies
      rw [← hinp]
      obtain ⟨hinit, replies, hgood, hturn, hleft⟩ :=
        ih hr (hshort.le.trans stage.le_room) hfits hbefore hd
      refine ⟨hinit, replies, hgood, ?_, hleft⟩
      cases replies with
      | nil => exact inTurn_nil _ _
      | cons reply replies =>
        rw [hinp] at hturn
        exact (inTurn_of_waits (hreplies reply ((replies_endsWith _).head hgood))).mpr hturn
    | @proceeds stage' reply hproceeds hr hinp =>
      rw [← hinp]
      obtain ⟨hinit, replies, hgood, hturn, hleft⟩ :=
        ih hr (hproceeds.kept_le hkept hpart hinp) hfits hbefore hd
      refine ⟨hinit, reply :: replies, .next hproceeds hgood, ?_, ?_⟩
      · exact (inTurn_of_arrived hproceeds.complete hproceeds.complete hinp).mpr ⟨rfl, hturn⟩
      · rw [List.flatten_cons, List.append_assoc, hleft, List.append_assoc]
    | refuses _ _ _ _ hr =>
      obtain ⟨e, he, hfailed⟩ := hr.run env (before ++ [a])
      obtain rfl := Except.ok.inj (hd.symm.trans he)
      exact (hwaits hfailed.crypto hsent).elim
    | ends _ _ hr _ =>
      obtain ⟨e, he, hinit⟩ := hr.run env before
      obtain rfl := Except.ok.inj (hbefore.symm.trans he)
      exact (hwaits hnone hinit.crypto).elim

end Reads

/-! ### The handshake -/

section Handshake

variable {W : Type*}

/-- A connection to the proxy that stands, for this client. -/
def dcConnected (env : DirectEnv W) (client : Conn W) : Conn (Conn W) :=
  tcpDirectDcConnected env ((newDcConn env client).over client)

theorem dcConnected_shakes {env : DirectEnv W} (hsocks : env.socks5.enabled = true)
    (client : Conn W) :
    Shakes .greeting (dcConnected env client) ∧ (dcConnected env client).inp = [] := by
  have hgreets : dcConnected env client = (socks5SendGreeting env.socks5
      ((newDcConn env client).over client)).setExtraInt SOCKS5_GREETING_SENT := by
    rw [dcConnected, tcpDirectDcConnected, if_pos hsocks]
  rw [hgreets]
  exact ⟨⟨⟨rfl, rfl, rfl, rfl⟩, ConnStatus.noConfusion, TransportMode.noConfusion, rfl, rfl, rfl,
    rfl, rfl⟩, rfl⟩

/-- **The handshake with a SOCKS5 proxy.**  For every stream of replies in whatever parts, the init
is sent exactly where the replies that are handled in turn are those of a handshake that succeeds,
and the connection fails without an init exactly where they are those of one that fails.  When the
init is sent, just the bytes of these replies have been taken from `in`. -/
theorem dcHandshake_iff (env : DirectEnv W) (hsocks : env.socks5.enabled = true) (client : Conn W)
    (arrivals : List (DcArrival W)) (hfits : Fits arrivals) :
    ∃ d, dcRun env (dcConnected env client) arrivals = .ok d ∧
      (d.crypto.isSome = true ↔
        Handled (Replies env.socks5) .greeting [] (rawParts arrivals)) ∧
      (d.cError = true ∧ d.crypto = none ↔
        Handled (Refusal env.socks5) .greeting [] (rawParts arrivals)) ∧
      (d.crypto = none → d.outP = []) ∧
      ∀ before a c, arrivals = before ++ [a] → a.more = 0 →
        dcRun env (dcConnected env client) before = .ok c → c.crypto = none →
          d.crypto.isSome = true → IsSentInit env.prim d.outP ∧
            ∃ replies, Replies env.socks5 .greeting replies ∧
              InTurn replies [] (rawParts arrivals) ∧
              replies.flatten ++ d.inp = (rawParts arrivals).flatten := by
  obtain ⟨hshakes, hinp⟩ := dcConnected_shakes hsocks client
  have hkept : (dcConnected env client).inp.length ≤ Socks5Stage.greeting.room := by
    rw [hinp]
    exact Nat.zero_le _
  obtain ⟨d, hd, hends⟩ := hshakes.run env hkept hfits
  rw [hinp] at hends
  refine ⟨d, hd, hends.sends, hends.fails, hends.silent, ?_⟩
  rintro before a c rfl hmore hbefore hnone hsent
  have hleft := hshakes.run_left hmore hkept hfits hbefore hnone hd hsent
  rw [hinp] at hleft
  exact hleft

/-! ### A proxy without credentials -/

/-- Connections to data centres through a proxy without credentials. -/
def proxied : DirectEnv Unit :=
  { readyDirect with
    socks5 := ⟨true, [], [], false, fun _ _ => ⟨[127, 0, 0, 1], List.replicate 16 0, 443⟩⟩ }

/-- A client, for a data centre. -/
def proxiedClient : Conn Unit := Conn.allocated ⟨0x7f000001, [], 50000, false⟩ 443 ()

/-- Bytes from the proxy, for a call of the reader that takes no second turn. -/
def fromProxy (raw : Bytes) : DcArrival Unit := ⟨raw, proxiedClient, [], 0⟩

/-- `05 00`, and the success of the CONNECT request. -/
def successReplies : List Bytes := [[5, 0], [5, 0, 0, 1, 0, 0, 0, 0, 0, 0]]

theorem successReplies_replies : Replies proxied.socks5 .greeting successReplies :=
  .next .noAuth (.last ⟨rfl, by decide, rfl⟩)

/-- The first of them in two parts, and the second behind it. -/
def successBlocks : List (List Bytes) := [[[5], [0]], [[5, 0, 0, 1, 0, 0, 0, 0, 0, 0]]]

/-- Behind a proxy that answers what it has been asked, the init is sent. -/
theorem dcHandshake_iff_sample :
    ∃ d, dcRun proxied (dcConnected proxied proxiedClient)
      (successBlocks.flatten.map fromProxy) = .ok d ∧ d.crypto.isSome = true := by
  obtain ⟨d, hd, hsends, -⟩ := dcHandshake_iff proxied rfl proxiedClient
    (successBlocks.flatten.map fromProxy) (by simp [Fits, fromProxy, successBlocks])
  have hturn : InTurn (successBlocks.map List.flatten) [] (successBlocks.flatten ++ []) :=
    inTurn_of_blocks (by simp [successBlocks]) (by simp [successBlocks])
  exact ⟨d, hd, hsends.mpr ⟨successReplies, successReplies_replies, hturn⟩⟩

/-- **Replies that arrive together are not handled together**: the second waits for more bytes,
with neither an init nor a failure. -/
theorem dcRun_coalesced :
    Replies proxied.socks5 .greeting successReplies ∧
      ∃ d, dcRun proxied (dcConnected proxied proxiedClient) [fromProxy successReplies.flatten] =
        .ok d ∧ d.crypto = none ∧ d.cError = false :=
  ⟨successReplies_replies, _, rfl, rfl, rfl⟩

end Handshake

end Server
end Teleproto3
