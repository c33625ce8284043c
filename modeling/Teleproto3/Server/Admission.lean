/-
# What is held against a slot when a connection is counted

A plain client's secret is checked in the stage that counts the connection, a client of fake TLS
at its ClientHello; the block that follows is matched against all secrets again and counted
without another check.  Between the two anything may have happened, and the block may be that of
another slot.

So a connection is counted against a slot that passes its checks as long as no block of a client
of fake TLS is opened by a slot that does not: `admissionRun_sound`.  The same holds of the limit
alone, and with it of the promise that no slot counts more connections than its limit:
`limitRun_sound`.
-/

import Teleproto3.Server.SlotRuns

namespace Teleproto3
namespace Server

open Lib

variable {X : Type*}

section Admission

variable (workers : ℕ) (base : ExtServerEnv X) (proxyProtocolEnabled : Bool)

/-! ### Counting -/

/-- What is known of the world behind a block, by what counting does to the world before it. -/
theorem ParseEffect.world_of {cond : Conn (SlotWorld X) → Prop} {I : SlotWorld X → Prop}
    {c d : Conn (SlotWorld X)} (h : ParseEffect workers base cond c d) (hI : I c.world)
    (hcalm : ∀ w w', Calm w w' → I w → I w')
    (hcount : ∀ c1 pr, cond c1 → openBlock base c1 = some pr →
      matchedSlot base c1 pr < EXT_SECRET_MAX_SLOTS →
      (c1.cIsTls = false → (c1.world.table.slot (matchedSlot base c1 pr)).Admissible workers
        c1.world.now c1.remote) → I c1.world →
      I ((slotServer workers base).countConnection c1.world (matchedSlot base c1 pr) c1.remote)) :
    I d.world := by
  cases h with
  | quiet h => exact hcalm _ _ h.world hI
  | @counted c1 d1 pr hfresh hfront hcond hblock hback =>
    refine hcalm _ _ hback.world (hcalm _ _ hblock.world ?_)
    have h1 : I c1.world := hcalm _ _ hfront.world hI
    unfold countedWorld
    split_ifs with hslot
    · exact hcount c1 pr hcond hblock.opened hslot (hblock.checked hslot) h1
    · exact h1

/-! ### The checks -/

/-- A block of a client of fake TLS is opened only by a slot that passes its checks. -/
def TlsAdmissible (c : Conn (SlotWorld X)) : Prop :=
  ∀ pr, openBlock base c = some pr → c.cIsTls = true →
    matchedSlot base c pr < EXT_SECRET_MAX_SLOTS →
      (c.world.table.slot (matchedSlot base c pr)).Admissible workers c.world.now c.remote

/-- Every connection was counted against a slot that passed its checks then. -/
def AllAdmitted (s : SlotServer X) : Prop := ∀ p ∈ s.world.counted, p.2 = true

/-- **One event** counts nobody against a slot that does not pass. -/
theorem slotStep_admitted {s : SlotServer X} {e : SlotEvent X} (h : AllAdmitted s)
    (hcond : BlockCond workers base (TlsAdmissible workers base) s e) :
    AllAdmitted (slotStep workers base proxyProtocolEnabled s e) := by
  refine slotStep_inv workers base proxyProtocolEnabled h hcond ?_ ?_ ?_ ?_
  · rintro - s' (⟨-, hworld, -⟩ | ⟨hi, heffect, rfl⟩)
    · unfold AllAdmitted
      rw [hworld]
      exact h
    · refine heffect.world_of workers base (I := fun w => ∀ p ∈ w.counted, p.2 = true) h ?_ ?_
      · intro w w' hw hall
        rw [hw.counted]
        exact hall
      · intro c1 pr htls hopened hslot hplain hall p hp
        have hadmissible : (c1.world.table.slot (matchedSlot base c1 pr)).Admissible workers
            c1.world.now c1.remote := by
          cases htlsEq : c1.cIsTls with
          | false => exact hplain htlsEq
          | true => exact htls pr hopened htlsEq hslot
        rcases List.mem_append.mp hp with hp | hp
        · exact hall p hp
        · rw [List.mem_singleton.mp hp]
          exact decide_eq_true hadmissible
  · intro _ i c _
    unfold AllAdmitted SlotServer.closed
    dsimp only
    rw [(clientClose_rest _).1]
    exact h
  · intro _ s' _ hother
    unfold AllAdmitted
    cases hother with
    | calm hworld _ =>
      rw [hworld.counted]
      exact h
    | accepted hworld _ =>
      rw [hworld]
      exact h
    | reloaded _ _ _ hcounted _ =>
      rw [hcounted]
      exact h
    | swept _ _ hcounted _ =>
      rw [hcounted]
      exact h
  · intro _
    cases e with
    | register cfg =>
      unfold slotSetup
      dsimp only
      split_ifs <;> exact h
    | _ => exact h

/-- **The admission checks hold of every slot a connection is counted against**, in every run of a
server in which no block of a client of fake TLS is opened by a slot that does not pass them. -/
theorem admissionRun_sound (now : ℤ) (preciseNow : ℚ) (rest : X) (es : List (SlotEvent X))
    (hcond : Along (slotStep workers base proxyProtocolEnabled)
      (BlockCond workers base (TlsAdmissible workers base)) (.start now preciseNow rest) es) :
    Throughout (slotStep workers base proxyProtocolEnabled) AllAdmitted
      (.start now preciseNow rest) es :=
  throughout_of_along (fun _ _ => slotStep_admitted workers base proxyProtocolEnabled)
    (fun _ hp => absurd hp List.not_mem_nil) hcond

/-! ### The limit -/

/-- A block of a client of fake TLS is opened only by a slot that is not at its limit. -/
def TlsUnderLimit (c : Conn (SlotWorld X)) : Prop :=
  ∀ pr, openBlock base c = some pr → c.cIsTls = true →
    matchedSlot base c pr < EXT_SECRET_MAX_SLOTS →
      ¬ (c.world.table.slot (matchedSlot base c pr)).OverLimit workers

/-- No slot with a limit counts more connections than the limit comes to. -/
def WithinLimits (s : SlotServer X) : Prop :=
  ∀ r, 0 < (s.world.table.slot r).limit →
    (s.world.table.slot r).connections ≤ effectiveLimit workers (s.world.table.slot r).limit

/-- The configuration stays as it is. -/
def SlotEvent.KeepsConfig : SlotEvent X → Prop
  | .register _ | .reload _ => False
  | _ => True

/-- **One event** takes no slot beyond its limit. -/
theorem slotStep_within {s : SlotServer X} {e : SlotEvent X} (h : WithinLimits workers s)
    (hstarted : s.started = true) (hconfig : e.KeepsConfig)
    (hcond : BlockCond workers base (TlsUnderLimit workers base) s e) :
    WithinLimits workers (slotStep workers base proxyProtocolEnabled s e) := by
  have hcalm (w w' : SlotWorld X) (hw : Calm w w')
      (hall : ∀ r, 0 < (w.table.slot r).limit →
        (w.table.slot r).connections ≤ effectiveLimit workers (w.table.slot r).limit) (r : ℕ)
      (hr : 0 < (w'.table.slot r).limit) :
      (w'.table.slot r).connections ≤ effectiveLimit workers (w'.table.slot r).limit := by
    rw [hw.limit] at hr ⊢
    rw [hw.connections]
    exact hall r hr
  refine slotStep_inv workers base proxyProtocolEnabled h hcond ?_ ?_ ?_ ?_
  · rintro - s' (⟨-, hworld, -⟩ | ⟨hi, heffect, rfl⟩)
    · unfold WithinLimits
      rw [hworld]
      exact h
    · refine heffect.world_of workers base (I := fun w => ∀ r, 0 < (w.table.slot r).limit →
        (w.table.slot r).connections ≤ effectiveLimit workers (w.table.slot r).limit) h hcalm ?_
      · intro c1 pr htls hopened hslot hplain hall r hr
        have hunder : ¬ (c1.world.table.slot (matchedSlot base c1 pr)).OverLimit workers := by
          cases htlsEq : c1.cIsTls with
          | false => exact (hplain htlsEq).limit
          | true => exact htls pr hopened htlsEq hslot
        obtain ⟨ips, n, hconnect⟩ :=
          (c1.world.table.slot (matchedSlot base c1 pr)).connect_eq c1.remote
        have hcount : ((slotServer workers base).countConnection c1.world (matchedSlot base c1 pr)
            c1.remote).table = c1.world.table.set (matchedSlot base c1 pr)
              ((c1.world.table.slot (matchedSlot base c1 pr)).connect c1.remote) := rfl
        rw [hcount] at hr ⊢
        by_cases hrs : r = matchedSlot base c1 pr
        · rw [hrs, SecretTable.set_slot_self, hconnect] at hr ⊢
          have hlt : (c1.world.table.slot (matchedSlot base c1 pr)).connections <
              effectiveLimit workers (c1.world.table.slot (matchedSlot base c1 pr)).limit := by
            by_contra hge
            exact hunder ⟨not_le.mpr hr, not_lt.mp hge⟩
          exact hlt
        · rw [SecretTable.set_slot_of_ne _ _ hrs] at hr ⊢
          exact hall r hr
  · intro _ i c _ r hr
    obtain ⟨k, -, ips, n, hslot⟩ := clientClose_slot (c.inWorld s.world) r
    have hclosed : (s.closed i c).world.table.slot r =
      { s.world.table.slot r with
        connections := (s.world.table.slot r).connections - k
        ips := ips
        uniqueIpCount := n } := hslot
    rw [hclosed] at hr ⊢
    have hle := h r hr
    show (s.world.table.slot r).connections - (k : ℤ) ≤ _
    have : (0 : ℤ) ≤ k := Int.natCast_nonneg k
    exact (sub_le_self _ this).trans hle
  · intro _ s' _ hother
    unfold WithinLimits
    cases hother with
    | calm hworld _ => exact hcalm _ _ hworld h
    | accepted hworld _ =>
      rw [hworld]
      exact h
    | reloaded he _ _ _ _ =>
      rw [he] at hconfig
      exact hconfig.elim
    | swept htable _ _ _ =>
      intro r hr
      rcases htable.slot r with hsame | ⟨-, -, -, hzero⟩
      · rw [hsame] at hr ⊢
        exact h r hr
      · rw [hzero] at hr
        exact absurd hr (lt_irrefl _)
  · intro hnot
    rw [hstarted] at hnot
    exact absurd hnot (by decide)

/-- **No slot counts more connections than its limit** in any run of a server whose configuration
stays as it is, in which no block of a client of fake TLS is opened by a slot at its limit. -/
theorem limitRun_sound (s : SlotServer X) (es : List (SlotEvent X)) (hstarted : s.started = true)
    (h : WithinLimits workers s) (hconfig : ∀ e ∈ es, e.KeepsConfig)
    (hcond : Along (slotStep workers base proxyProtocolEnabled)
      (BlockCond workers base (TlsUnderLimit workers base)) s es) :
    Throughout (slotStep workers base proxyProtocolEnabled) (WithinLimits workers) s es := by
  induction es generalizing s with
  | nil => exact h
  | cons e es ih =>
    obtain ⟨hhere, hrest⟩ := hcond
    refine ⟨h, ih _ (slotStep_started workers base proxyProtocolEnabled hstarted) ?_ ?_ hrest⟩
    · exact slotStep_within workers base proxyProtocolEnabled h hstarted
        (hconfig e List.mem_cons_self) hhere
    · exact fun e' he' => hconfig e' (List.mem_cons_of_mem e he')

end Admission

/-! ### A client of fake TLS -/

/-- A server with a domain to imitate, for which every ClientHello has the random of every
secret. -/
def domainServer : ExtServerEnv Unit :=
  { sampleServer with
    defaultDomainInfo := some ⟨443, 1, []⟩
    getSniDomainInfo := fun _ => some ⟨443, 1, []⟩
    sha256Hmac := fun _ _ => List.replicate 32 1
    parseClientHelloCiphers := fun _ => some 1 }

/-- A secret for one connection at a time, until 10. -/
def sampleSecret : SecretConfig := ⟨List.replicate 16 0, [], 1, 0, 0, 0, 10⟩

/-- The world at 0, with this secret in slot 0. -/
def sampleSlots : SlotWorld Unit :=
  ⟨tcpRpcsPinExtSecrets (tcpRpcsSetExtSecret SecretTable.empty sampleSecret), 0, 0, 0, (), []⟩

/-- A ClientHello in which a line ends twice, which is how the probe for a WebSocket comes to let
it pass. -/
def sampleHello : Bytes :=
  [0x16, 3, 1, 2, 1] ++ List.replicate 50 1 ++ [13, 10, 13, 10] ++ List.replicate 459 1

/-- A block that a secret of zeros opens. -/
def zeroBlock : Bytes := List.replicate 56 0 ++ List.replicate 4 0xdd ++ List.replicate 4 0

/-- The first packet of a client of fake TLS, with the block. -/
def zeroTlsBlock : Bytes := [0x14, 3, 3, 0, 1, 1, 0x17, 3, 3, 0, 64] ++ zeroBlock

/-- What opens the block. -/
def sampleOpened : Obfs2ParseResult :=
  ⟨OBFS2_TAG_PAD, 0, 0, obfs2Keys domainServer.prim zeroBlock (some (List.replicate 16 0))⟩

section Sample

variable (w : SlotWorld Unit)

/-- A client that has been accepted and has sent something. -/
def sampleClient (inp : Bytes) : Conn (SlotWorld Unit) :=
  { tcpRpcsExtInitAccepted (slotServer 1 domainServer) false
      (Conn.allocated ⟨0x7f000001, [], 50000, false⟩ 443 w) with inp := inp }

/-- The client behind its ClientHello, with what it has sent since. -/
def sampleGreeted (inp : Bytes) : Conn (SlotWorld Unit) :=
  { sampleClient w inp with
    wsState := .none
    cIsTls := true
    leftTlsPacketLength := -1
    outQueue := [[], []]
    log := [.clientHello sampleHello] }

/-- The client at its block. -/
def sampleAtBlock : Conn (SlotWorld Unit) :=
  { sampleGreeted w zeroBlock with leftTlsPacketLength := 0 }

/-- The client behind its block. -/
def sampleSeated : Conn (SlotWorld Unit) :=
  countSession (slotServer 1 domainServer)
    (setTarget (startCrypto (slotServer 1 domainServer)
      ((sampleAtBlock w).record (.obfs2Header zeroBlock)) sampleOpened) sampleOpened 0) 0

set_option maxRecDepth 10000 in
theorem sampleHello_stages :
    parseStages (slotServer 1 domainServer) (sampleClient sampleSlots sampleHello) =
      .error (.ret (sampleGreeted sampleSlots []) 11) := rfl

theorem sampleOpened_eq : obfs2ParseHeader domainServer.prim zeroBlock [List.replicate 16 0] false =
    some sampleOpened := by decide +kernel

variable {w}

theorem openBlock_sample (h : slotsInUse w.table.secrets = [(0, List.replicate 16 0)]) :
    openBlock domainServer (sampleAtBlock w) = some sampleOpened := by
  unfold openBlock
  have hslots : slotsInUse (sampleAtBlock w).world.table.secrets = [(0, List.replicate 16 0)] := h
  rw [hslots]
  exact sampleOpened_eq

theorem matchedSlot_sample (h : slotsInUse w.table.secrets = [(0, List.replicate 16 0)]) :
    matchedSlot domainServer (sampleAtBlock w) sampleOpened = 0 := by
  unfold matchedSlot
  have hslots : slotsInUse (sampleAtBlock w).world.table.secrets = [(0, List.replicate 16 0)] := h
  rw [hslots]
  rfl

set_option maxRecDepth 10000 in
theorem sampleReaches : ReachesBlock (slotServer 1 domainServer) (sampleGreeted w zeroTlsBlock)
    (sampleAtBlock w) := ⟨_, _, _, rfl, rfl, rfl, rfl, rfl⟩

theorem zeroBlock_stages (h : slotsInUse w.table.secrets = [(0, List.replicate 16 0)]) :
    parseStages (slotServer 1 domainServer) (sampleGreeted w zeroTlsBlock) =
      .ok (sampleSeated w) := by
  have hopen : obfs2ParseHeader (slotServer 1 domainServer).prim ((sampleAtBlock w).inp.take 64)
      ((slotsInUse ((slotServer 1 domainServer).secrets (sampleAtBlock w).world)).map Prod.snd)
      (slotServer 1 domainServer).extRandPadOnly = some sampleOpened := openBlock_sample h
  have hslot : ((slotsInUse ((slotServer 1 domainServer).secrets (sampleAtBlock w).world)).map
      Prod.fst).getD sampleOpened.secretId (slotServer 1 domainServer).staleSlot = 0 :=
    matchedSlot_sample h
  have hdecrypt : cpuTcpAesCryptoCtr128DecryptInput (startCrypto (slotServer 1 domainServer)
      ((sampleAtBlock w).record (.obfs2Header zeroBlock)) sampleOpened) =
    .ok (startCrypto (slotServer 1 domainServer)
      ((sampleAtBlock w).record (.obfs2Header zeroBlock)) sampleOpened, 0) :=
    loop_of_done decryptTurn_shrinks rfl
  have haccept : acceptObfs2 (slotServer 1 domainServer) sampleOpened 0
      ((sampleAtBlock w).record (.obfs2Header zeroBlock)) = .ok (sampleSeated w) := by
    unfold acceptObfs2
    rw [hdecrypt]
    rfl
  have hlen : ¬ zeroBlock.length < 64 := by decide
  rw [parseStages_of_reaches _ sampleReaches, obfs2Header,
    if_neg (show ¬ (sampleAtBlock w).inp.length < 64 from hlen)]
  dsimp only
  rw [hopen]
  dsimp only
  rw [hslot]
  exact haccept

theorem sampleSeated_stages (w : SlotWorld Unit) :
    parseStages (slotServer 1 domainServer) (sampleSeated w) =
      .error (.ret { sampleSeated w with timer := none } NEED_MORE_BYTES) := rfl

/-- The call that reads the ClientHello. -/
theorem sampleHello_parse :
    clientParseExecute (slotServer 1 domainServer) (sampleClient sampleSlots sampleHello) =
      .ok (sampleGreeted sampleSlots [], 11) :=
  tcpRpcsCompactParseExecute_of_error _ sampleHello_stages

/-- The call that reads the block. -/
theorem zeroBlock_parse (h : slotsInUse w.table.secrets = [(0, List.replicate 16 0)]) :
    clientParseExecute (slotServer 1 domainServer) (sampleGreeted w zeroTlsBlock) =
      .ok ({ sampleSeated w with timer := none }, NEED_MORE_BYTES) :=
  (tcpRpcsCompactParseExecute_of_ok _ (zeroBlock_stages h)).trans
    (tcpRpcsCompactParseExecute_of_error _ (sampleSeated_stages w))

set_option maxRecDepth 10000 in
/-- No block is reached in the first of these calls. -/
theorem sampleHello_eachBlock (cond : Conn (SlotWorld Unit) → Prop) :
    EachBlock 1 domainServer cond (sampleClient sampleSlots sampleHello) := by
  refine fun _ => .done ?_ (parseTurn_of_error _ sampleHello_stages)
  rintro c ⟨c1, c2, c3, hdetect, hpre, hflags, -, htls⟩
  have h1 : c1 = { sampleClient sampleSlots sampleHello with wsState := .none } :=
    (Except.ok.inj (hdetect.symm.trans rfl))
  subst h1
  have h2 : c2 = { sampleClient sampleSlots sampleHello with wsState := .none } :=
    (Except.ok.inj (hpre.symm.trans rfl))
  subst h2
  have h3 : c3 = { sampleClient sampleSlots sampleHello with wsState := .none } :=
    (Except.ok.inj (hflags.symm.trans rfl))
  subst h3
  have h4 : (.ok c : Except _ _) = .error _ := htls.symm.trans rfl
  exact nomatch h4

/-- In the second, one block is. -/
theorem zeroBlock_eachBlock {cond : Conn (SlotWorld Unit) → Prop}
    (h : slotsInUse w.table.secrets = [(0, List.replicate 16 0)]) (hcond : cond (sampleAtBlock w)) :
    EachBlock 1 domainServer cond (sampleGreeted w zeroTlsBlock) := by
  refine fun _ => .again ?_ (parseTurn_of_ok _ (zeroBlock_stages h))
    (.done ?_ (parseTurn_of_error _ (sampleSeated_stages w)))
  · intro c hc
    rw [← sampleReaches.unique _ hc]
    exact hcond
  · rintro c ⟨c1, c2, c3, hdetect, hpre, hflags, -, -⟩
    have h1 : c1 = sampleSeated w := Except.ok.inj (hdetect.symm.trans rfl)
    subst h1
    have h2 : c2 = sampleSeated w := Except.ok.inj (hpre.symm.trans rfl)
    subst h2
    have h3 : (.ok c3 : Except _ _) = .error _ := hflags.symm.trans rfl
    exact nomatch h3

/-- A server that serves, with these clients. -/
def sampleServing (w : SlotWorld Unit) (clients : List (Conn (SlotWorld Unit))) :
    SlotServer Unit := ⟨true, w, clients, none⟩

/-- The secret is registered, the server starts, and a client comes with its ClientHello. -/
def sampleGreeting : List (SlotEvent Unit) :=
  [.register sampleSecret, .start, .accept ⟨0x7f000001, [], 50000, false⟩ 443,
    .read 0 (sampleClient sampleSlots sampleHello)]

theorem sampleGreeting_finish :
    finish (slotStep 1 domainServer false) (.start 0 0 ()) (sampleGreeting ++ [.parse 0]) =
      sampleServing sampleSlots [sampleGreeted sampleSlots []] := by
  rw [finish_append]
  exact slotStep_parse 1 domainServer false
    (s := sampleServing sampleSlots [sampleClient sampleSlots sampleHello])
    (i := 0) (c := sampleClient sampleSlots sampleHello) rfl rfl rfl sampleHello_parse

theorem sampleGreeting_along (cond : Conn (SlotWorld Unit) → Prop) :
    Along (slotStep 1 domainServer false) (BlockCond 1 domainServer cond) (.start 0 0 ())
      (sampleGreeting ++ [.parse 0]) := by
  refine along_append.mpr ⟨⟨trivial, trivial, trivial, trivial, trivial⟩, ?_, trivial⟩
  intro c hc
  rw [← Option.some.inj hc]
  exact sampleHello_eachBlock cond

/-- The client's block is read. -/
theorem zeroBlock_step (h : slotsInUse w.table.secrets = [(0, List.replicate 16 0)]) :
    slotStep 1 domainServer false (sampleServing w [sampleGreeted w zeroTlsBlock]) (.parse 0) =
      sampleServing (sampleSeated w).world [{ sampleSeated w with timer := none }] :=
  slotStep_parse 1 domainServer false (s := sampleServing w [sampleGreeted w zeroTlsBlock])
    (c := sampleGreeted w zeroTlsBlock) rfl rfl rfl (zeroBlock_parse h)

end Sample

/-- A client is counted while its secret is good. -/
theorem admissionRun_sound_greeting :
    Throughout (slotStep 1 domainServer false) AllAdmitted (.start 0 0 ())
      (sampleGreeting ++ [.parse 0] ++
        [.read 0 (sampleGreeted sampleSlots zeroTlsBlock), .parse 0]) := by
  refine admissionRun_sound 1 domainServer false 0 0 () _ (along_append.mpr ⟨?_, ?_⟩)
  · exact sampleGreeting_along _
  · rw [sampleGreeting_finish]
    refine ⟨trivial, ?_, trivial⟩
    intro c hc
    rw [← Option.some.inj hc]
    refine zeroBlock_eachBlock rfl ?_
    intro pr hopened _ _
    rw [openBlock_sample rfl] at hopened
    rw [← Option.some.inj hopened, matchedSlot_sample rfl]
    decide

/-- **The checks need not hold when a connection is counted**: a client of fake TLS sends its block
when its secret has expired. -/
theorem admissionRun_not_sound :
    ¬ ∀ es, Throughout (slotStep 1 domainServer false) AllAdmitted (.start 0 0 ()) es := by
  intro hall
  have hrun := (hall (sampleGreeting ++ [.parse 0] ++
    [.tick 20 0 (), .read 0 (sampleGreeted sampleSlots zeroTlsBlock), .parse 0])).finish
  rw [finish_append, sampleGreeting_finish] at hrun
  have hlast : finish (slotStep 1 domainServer false)
      (sampleServing sampleSlots [sampleGreeted sampleSlots []])
      [.tick 20 0 (), .read 0 (sampleGreeted sampleSlots zeroTlsBlock), .parse 0] =
    sampleServing (sampleSeated { sampleSlots with now := 20 }).world
      [{ sampleSeated { sampleSlots with now := 20 } with timer := none }] :=
    zeroBlock_step (w := { sampleSlots with now := 20 }) rfl
  rw [hlast] at hrun
  exact absurd (hrun (0, false) (by decide)) (by decide)

/-- The secret's slot counts nobody yet, and no other slot has a limit. -/
theorem sampleServing_within : WithinLimits 1 (sampleServing sampleSlots []) := by
  intro r hr
  have hslot : (sampleServing sampleSlots []).world.table.slot r =
      Function.update (fun _ => SecretSlot.zero) 0 (sampleSlots.table.slot 0) r := rfl
  rw [hslot] at hr ⊢
  by_cases hr0 : r = 0
  · rw [hr0]
    decide
  · rw [Function.update_of_ne hr0] at hr
    exact absurd hr (by decide)

/-- One client of a secret for one. -/
theorem limitRun_sound_one :
    Throughout (slotStep 1 domainServer false) (WithinLimits 1) (sampleServing sampleSlots [])
      ([.accept ⟨0x7f000001, [], 50000, false⟩ 443,
        .read 0 (sampleClient sampleSlots sampleHello), .parse 0] ++
        [.read 0 (sampleGreeted sampleSlots zeroTlsBlock), .parse 0]) := by
  refine limitRun_sound 1 domainServer false _ _ rfl sampleServing_within ?_ (along_append.mpr ⟨?_, ?_⟩)
  · intro e he
    simp only [List.mem_append, List.mem_cons, List.not_mem_nil, or_false] at he
    rcases he with (rfl | rfl | rfl) | rfl | rfl <;> trivial
  · refine ⟨trivial, trivial, ?_, trivial⟩
    intro c hc
    rw [← Option.some.inj hc]
    exact sampleHello_eachBlock _
  · have hfirst : finish (slotStep 1 domainServer false) (sampleServing sampleSlots [])
        [.accept ⟨0x7f000001, [], 50000, false⟩ 443,
          .read 0 (sampleClient sampleSlots sampleHello), .parse 0] =
        sampleServing sampleSlots [sampleGreeted sampleSlots []] :=
      slotStep_parse 1 domainServer false
        (s := sampleServing sampleSlots [sampleClient sampleSlots sampleHello])
        (i := 0) (c := sampleClient sampleSlots sampleHello) rfl rfl rfl sampleHello_parse
    rw [hfirst]
    refine ⟨trivial, ?_, trivial⟩
    intro c hc
    rw [← Option.some.inj hc]
    refine zeroBlock_eachBlock rfl ?_
    intro pr hopened _ _
    rw [openBlock_sample rfl] at hopened
    rw [← Option.some.inj hopened, matchedSlot_sample rfl]
    decide

/-- **A slot can count more connections than its limit**: two clients of fake TLS have sent their
ClientHello before either sends its block. -/
theorem limitRun_not_sound :
    ¬ ∀ (s : SlotServer Unit) (es : List (SlotEvent Unit)), s.started = true → s.clients = [] →
      WithinLimits 1 s → (∀ e ∈ es, e.KeepsConfig) →
        Throughout (slotStep 1 domainServer false) (WithinLimits 1) s es := by
  intro hall
  -- Both clients are accepted and greeted, and then both blocks are read.
  have hgreet0 : finish (slotStep 1 domainServer false) (sampleServing sampleSlots [])
      [.accept ⟨0x7f000001, [], 50000, false⟩ 443, .accept ⟨0x7f000001, [], 50000, false⟩ 443,
        .read 0 (sampleClient sampleSlots sampleHello), .parse 0] =
      sampleServing sampleSlots [sampleGreeted sampleSlots [], sampleClient sampleSlots []] :=
    slotStep_parse 1 domainServer false
      (s := sampleServing sampleSlots
        [sampleClient sampleSlots sampleHello, sampleClient sampleSlots []])
      (i := 0) (c := sampleClient sampleSlots sampleHello) rfl rfl rfl sampleHello_parse
  have hgreet1 : finish (slotStep 1 domainServer false)
      (sampleServing sampleSlots [sampleGreeted sampleSlots [], sampleClient sampleSlots []])
      [.read 1 (sampleClient sampleSlots sampleHello), .parse 1] =
      sampleServing sampleSlots [sampleGreeted sampleSlots [], sampleGreeted sampleSlots []] :=
    slotStep_parse 1 domainServer false
      (s := sampleServing sampleSlots
        [sampleGreeted sampleSlots [], sampleClient sampleSlots sampleHello])
      (i := 1) (c := sampleClient sampleSlots sampleHello) rfl rfl rfl sampleHello_parse
  have hblock0 : finish (slotStep 1 domainServer false)
      (sampleServing sampleSlots [sampleGreeted sampleSlots [], sampleGreeted sampleSlots []])
      [.read 0 (sampleGreeted sampleSlots zeroTlsBlock), .parse 0] =
      sampleServing (sampleSeated sampleSlots).world
        [{ sampleSeated sampleSlots with timer := none }, sampleGreeted sampleSlots []] :=
    slotStep_parse 1 domainServer false
      (s := sampleServing sampleSlots
        [sampleGreeted sampleSlots zeroTlsBlock, sampleGreeted sampleSlots []])
      (i := 0) (c := sampleGreeted sampleSlots zeroTlsBlock) rfl rfl rfl (zeroBlock_parse rfl)
  have hblock1 : finish (slotStep 1 domainServer false)
      (sampleServing (sampleSeated sampleSlots).world
        [{ sampleSeated sampleSlots with timer := none }, sampleGreeted sampleSlots []])
      [.read 1 (sampleGreeted sampleSlots zeroTlsBlock), .parse 1] =
      sampleServing (sampleSeated (sampleSeated sampleSlots).world).world
        [{ sampleSeated sampleSlots with timer := none },
          { sampleSeated (sampleSeated sampleSlots).world with timer := none }] :=
    slotStep_parse 1 domainServer false
      (s := sampleServing (sampleSeated sampleSlots).world
        [{ sampleSeated sampleSlots with timer := none },
          sampleGreeted (sampleSeated sampleSlots).world zeroTlsBlock])
      (i := 1) (c := sampleGreeted (sampleSeated sampleSlots).world zeroTlsBlock) rfl rfl rfl
      (zeroBlock_parse rfl)
  have hrun := hall (sampleServing sampleSlots [])
    ([.accept ⟨0x7f000001, [], 50000, false⟩ 443, .accept ⟨0x7f000001, [], 50000, false⟩ 443,
        .read 0 (sampleClient sampleSlots sampleHello), .parse 0] ++
      ([.read 1 (sampleClient sampleSlots sampleHello), .parse 1] ++
        ([.read 0 (sampleGreeted sampleSlots zeroTlsBlock), .parse 0] ++
          [.read 1 (sampleGreeted sampleSlots zeroTlsBlock), .parse 1])))
    rfl rfl sampleServing_within fun e he => by
      simp only [List.mem_append, List.mem_cons, List.not_mem_nil, or_false] at he
      rcases he with (rfl | rfl | rfl | rfl) | (rfl | rfl) | (rfl | rfl) | rfl | rfl <;> trivial
  have hend := hrun.finish
  rw [finish_append, hgreet0, finish_append, hgreet1, finish_append, hblock0, hblock1] at hend
  exact absurd (hend 0 (by decide)) (by decide)

end Server
end Teleproto3
