/-
# A slot in use keeps its secret

Connections refer to a secret by the number of its slot, for as long as they live, while reloads
and sweeps change the table.  What keeps the numbers good is a count: a slot in use counts at
least the clients under it, and a sweep releases only what counts nobody.

That needs every client to be under a slot in use to begin with.  Where no slot is in use,
`obfs2_parse_header` tries the block without a secret, and the number of the slot is then read
from an array nobody has written to.  `slotRun_stable` is about the runs in which no block is
opened while no slot is in use.
-/

import Teleproto3.Server.Admission

namespace Teleproto3
namespace Server

open Lib

variable {X : Type*}

/-! ### Slots -/

/-- A match of a block is under one of the secrets, where there are any. -/
theorem obfs2ParseHeader_some {prim : Primitives} {header : Bytes} {randPadOnly : Bool}
    {secrets : List Bytes} {pr : Obfs2ParseResult} (hsecrets : secrets ≠ [])
    (h : obfs2ParseHeader prim header secrets randPadOnly = some pr) :
    ∃ key, secrets[pr.secretId]? = some key ∧ pr.keys = obfs2Keys prim header (some key) := by
  unfold obfs2ParseHeader at h
  rw [if_neg (fun hlen => hsecrets (List.length_eq_zero_iff.mp hlen))] at h
  obtain ⟨i, hi, hsid, hkeys, -⟩ := obfs2TrySecrets_some h
  refine ⟨secrets[i], ?_, hkeys⟩
  rw [hsid, Nat.zero_add]
  exact List.getElem?_eq_getElem hi

/-- The slots in use are slots of the table that are not free, with their keys. -/
theorem mem_slotsInUse {t : SecretTable} {r : ℕ} {key : Bytes}
    (h : (r, key) ∈ slotsInUse t.secrets) : (t.slot r).state ≠ .free ∧ (t.slot r).key = key := by
  obtain ⟨⟨secret, s⟩, hmem, heq⟩ := List.mem_map.mp h
  obtain ⟨hzip, hused⟩ := List.mem_filter.mp hmem
  obtain ⟨rfl, rfl⟩ := Prod.mk.inj heq
  have hget := List.mem_zipIdx_iff_getElem?.mp hzip
  simp only [SecretTable.secrets, List.getElem?_map, Option.map_eq_some_iff] at hget
  obtain ⟨q, hq, rfl⟩ := hget
  obtain ⟨hlt, rfl⟩ := List.getElem?_eq_some_iff.mp hq
  rw [List.getElem_range] at hused ⊢
  exact ⟨of_decide_eq_true hused, rfl⟩

/-- What a connection has been authenticated with: its cipher has the keys that its header spells
under this secret. -/
def AuthenticatedBy {W : Type*} (prim : Primitives) (c : Conn W) (key : Bytes) : Prop :=
  ∃ header, .obfs2Header header ∈ c.log ∧ .cryptoInit (obfs2Keys prim header (some key)) ∈ c.log

theorem AuthenticatedBy.mono {W : Type*} {prim : Primitives} {c d : Conn W} {key : Bytes}
    (h : AuthenticatedBy prim c key) (hlog : c.log <+: d.log) : AuthenticatedBy prim d key := by
  obtain ⟨header, hheader, hkeys⟩ := h
  exact ⟨header, hlog.subset hheader, hlog.subset hkeys⟩

section Stable

variable (workers : ℕ) (base : ExtServerEnv X) (proxyProtocolEnabled : Bool)

/-- A block is opened under the number of a slot only while some slot is in use. -/
def OpenedInUse (c : Conn (SlotWorld X)) : Prop :=
  ∀ pr, openBlock base c = some pr → matchedSlot base c pr < EXT_SECRET_MAX_SLOTS →
    slotsInUse c.world.table.secrets ≠ []

variable {workers base} in
/-- **The block of an accepted connection** was opened by the secret of the slot it is counted
under, which is in use. -/
theorem Accepted.authenticated {c d : Conn (SlotWorld X)} {pr : Obfs2ParseResult}
    (h : Accepted workers base c d pr) (hsome : slotsInUse c.world.table.secrets ≠ []) :
    (c.world.table.slot (matchedSlot base c pr)).state ≠ .free ∧
      AuthenticatedBy base.prim d (c.world.table.slot (matchedSlot base c pr)).key := by
  have hopened := h.opened
  unfold openBlock at hopened
  obtain ⟨key, hkey, hkeys⟩ := obfs2ParseHeader_some
    (fun hnil => hsome (List.map_eq_nil_iff.mp hnil)) hopened
  rw [List.getElem?_map, Option.map_eq_some_iff] at hkey
  obtain ⟨⟨r, key⟩, hget, rfl⟩ := hkey
  have hslot : matchedSlot base c pr = r := by
    unfold matchedSlot
    rw [List.getD_eq_getElem?_getD, List.getElem?_map, hget]
    rfl
  obtain ⟨hused, hkeyEq⟩ := mem_slotsInUse (List.mem_of_getElem? hget)
  rw [hslot, hkeyEq]
  refine ⟨hused, c.inp.take 64, h.header, ?_⟩
  rw [← hkeys]
  exact h.keys

/-! ### The invariant -/

/-- **What one event can do to the slots**: a slot in use keeps its key for as long as it is in
use, pinned slots stay as they are, and only a draining slot that counts nobody is released. -/
structure StableStep (s s' : SlotServer X) : Prop where
  key : ∀ r, (s.world.table.slot r).state ≠ .free → (s'.world.table.slot r).state ≠ .free →
    (s'.world.table.slot r).key = (s.world.table.slot r).key
  pinned : ∀ r < s.world.table.pinned,
    (s'.world.table.slot r).state = (s.world.table.slot r).state ∧
      (s'.world.table.slot r).key = (s.world.table.slot r).key
  released : ∀ r, (s.world.table.slot r).state ≠ .free → (s'.world.table.slot r).state = .free →
    (s.world.table.slot r).state = .draining ∧ (s.world.table.slot r).connections = 0

/-- **What a connection's slot is**: in use, and with the key the connection was authenticated
with. -/
def LiveSlots (s : SlotServer X) : Prop :=
  ∀ c ∈ s.clients, ∀ r, c.secretSlot = some r → (s.world.table.slot r).state ≠ .free ∧
    AuthenticatedBy base.prim c (s.world.table.slot r).key

/-- A server that does not serve yet has no clients, and what it has registered is in use. -/
structure SettingUp (s : SlotServer X) : Prop where
  clients : s.clients = []
  pinned : s.world.table.pinned = 0
  counts : ∀ r, (s.world.table.slot r).connections = 0
  used : ∀ r < s.world.table.cnt, (s.world.table.slot r).state = .active
  unused : ∀ r, s.world.table.cnt ≤ r → (s.world.table.slot r).state = .free

/-- **The invariant**: a slot in use counts at least the clients under it. -/
structure StableInv (s : SlotServer X) : Prop where
  setup : s.started = false → SettingUp s
  sessions : ∀ c ∈ s.clients, SessionOk c
  pinned : ∀ r < s.world.table.pinned, (s.world.table.slot r).state = .active
  counts : ∀ r, (s.world.table.slot r).state ≠ .free →
    (tally Conn.secretSlot s.clients r : ℤ) ≤ (s.world.table.slot r).connections
  live : LiveSlots base s

theorem StableStep.refl (s : SlotServer X) : StableStep s s :=
  ⟨fun _ _ _ => rfl, fun _ _ => ⟨rfl, rfl⟩, fun _ hused hfree => absurd hfree hused⟩

/-- Where the slots keep their states and keys. -/
theorem StableStep.of_same {s s' : SlotServer X}
    (hstate : ∀ r, (s'.world.table.slot r).state = (s.world.table.slot r).state)
    (hkey : ∀ r, (s'.world.table.slot r).key = (s.world.table.slot r).key) : StableStep s s' where
  key r _ _ := hkey r
  pinned r _ := ⟨hstate r, hkey r⟩
  released r hused hfree := absurd ((hstate r).symm.trans hfree) hused

variable {base} in
/-- Nobody is under a free slot. -/
theorem StableInv.nobody {s : SlotServer X} (h : StableInv base s) {r : ℕ}
    (hfree : (s.world.table.slot r).state = .free) : tally Conn.secretSlot s.clients r = 0 :=
  tally_eq_zero _ fun c hc hslot => (h.live c hc r hslot).1 hfree

/-! ### One event -/

variable {base} in
/-- A connection is replaced by one that is under its slot, or has come under one. -/
theorem StableInv.put {s : SlotServer X} (h : StableInv base s) (hstarted : s.started = true)
    {i : ℕ} {c d : Conn (SlotWorld X)} (hi : s.clients[i]? = some c)
    (hmove : SlotMove (c.inWorld s.world) d)
    (hlive : ∀ r, d.secretSlot = some r → (s.world.table.slot r).state ≠ .free ∧
      AuthenticatedBy base.prim d (s.world.table.slot r).key) :
    StableStep s (s.put i d) ∧ StableInv base (s.put i d) := by
  refine ⟨.of_same hmove.state hmove.key, ?_⟩
  exact
    { setup := fun hnot => absurd (hstarted.symm.trans hnot) (by decide)
      sessions := fun e he => by
        rcases List.mem_or_eq_of_mem_set he with he | rfl
        · exact h.sessions e he
        · exact hmove.ok
      pinned := fun r hr => by
        rw [show (s.put i d).world.table.pinned = s.world.table.pinned from hmove.pinned] at hr
        exact (hmove.state r).trans (h.pinned r hr)
      counts := fun r hused => by
        have hcount := h.counts r ((hmove.state r) ▸ hused)
        have hset := tally_set Conn.secretSlot hi d r
        have hconnections : (d.world.table.slot r).connections + weight Conn.secretSlot c r =
          (s.world.table.slot r).connections + weight Conn.secretSlot d r := hmove.connections r
        show (tally Conn.secretSlot (s.clients.set i d) r : ℤ) ≤ (d.world.table.slot r).connections
        omega
      live := fun e he r hr => by
        show (d.world.table.slot r).state ≠ .free ∧
          AuthenticatedBy base.prim e (d.world.table.slot r).key
        rw [hmove.state r, hmove.key r]
        rcases List.mem_or_eq_of_mem_set he with he | rfl
        · exact h.live e he r hr
        · exact hlive r hr }

/-- **A call of the parser.** -/
theorem StableInv.parse {s : SlotServer X} (h : StableInv base s) (hstarted : s.started = true)
    {i : ℕ} {c d : Conn (SlotWorld X)} (hi : s.clients[i]? = some c)
    (heffect : ParseEffect workers base (OpenedInUse base) (c.inWorld s.world) d) :
    StableStep s (s.put i d) ∧ StableInv base (s.put i d) := by
  have hmem : c ∈ s.clients := List.mem_of_getElem? hi
  have hok : SessionOk (c.inWorld s.world) := (h.sessions c hmem).inWorld s.world
  refine h.put hstarted hi (heffect.slotMove hok) fun r hr => ?_
  cases heffect with
  | quiet hquiet =>
    obtain ⟨hused, hkey⟩ := h.live c hmem r ((hquiet.secretSlot hok) ▸ hr)
    exact ⟨hused, hkey.mono hquiet.log⟩
  | @counted c1 d1 pr hfresh hfront hcond hblock hback =>
    rw [hback.secretSlot hblock.ok, hblock.secretSlot] at hr
    split_ifs at hr with hlt
    obtain ⟨hused, hkey⟩ := hblock.authenticated (hcond pr hblock.opened hlt)
    rw [← Option.some.inj hr, ← show (c1.world.table.slot _).state = (s.world.table.slot _).state
      from hfront.world.state _, ← show (c1.world.table.slot _).key = (s.world.table.slot _).key
      from hfront.world.key _]
    exact ⟨hused, hkey.mono hback.log⟩

variable {base} in
/-- **The end of a connection.** -/
theorem StableInv.closed {s : SlotServer X} (h : StableInv base s) (hstarted : s.started = true)
    {i : ℕ} {c : Conn (SlotWorld X)} (hi : s.clients[i]? = some c) :
    StableStep s (s.closed i c) ∧ StableInv base (s.closed i c) := by
  have hslot (r : ℕ) : ∃ k, k ≤ weight Conn.secretSlot c r ∧
      (s.world.table.slot r).Counts ((s.closed i c).world.table.slot r)
        ((s.world.table.slot r).connections - k) := clientClose_slot (c.inWorld s.world) r
  have hstate (r : ℕ) : ((s.closed i c).world.table.slot r).state = (s.world.table.slot r).state := by
    obtain ⟨k, -, ips, n, heq⟩ := hslot r
    rw [heq]
  have hkey (r : ℕ) : ((s.closed i c).world.table.slot r).key = (s.world.table.slot r).key := by
    obtain ⟨k, -, ips, n, heq⟩ := hslot r
    rw [heq]
  have hsub (e : Conn (SlotWorld X)) (he : e ∈ (s.closed i c).clients) : e ∈ s.clients :=
    List.mem_of_mem_eraseIdx he
  refine ⟨.of_same hstate hkey, ?_⟩
  exact
    { setup := fun hnot => absurd (hstarted.symm.trans hnot) (by decide)
      sessions := fun e he => h.sessions e (hsub e he)
      pinned := fun r hr => by
        rw [show (s.closed i c).world.table.pinned = s.world.table.pinned from
          (clientClose_rest (c.inWorld s.world)).2] at hr
        exact (hstate r).trans (h.pinned r hr)
      counts := fun r hused => by
        have hcount := h.counts r ((hstate r) ▸ hused)
        obtain ⟨k, hk, ips, n, heq⟩ := hslot r
        have herase := tally_eraseIdx Conn.secretSlot hi r
        rw [heq]
        show (tally Conn.secretSlot (s.clients.eraseIdx i) r : ℤ) ≤
          (s.world.table.slot r).connections - k
        omega
      live := fun e he r hr => by
        rw [hstate, hkey]
        exact h.live e (hsub e he) r hr }

variable {base} in
/-- **A reload.** -/
theorem StableInv.reloaded {s s' : SlotServer X} (h : StableInv base s)
    (hstarted : s'.started = true) (htable : s.world.table.Reloads s'.world.table)
    (hclients : s'.clients = s.clients) : StableStep s s' ∧ StableInv base s' := by
  have hcarries (r : ℕ) : Carries (s.world.table.slot r) (s'.world.table.slot r) :=
    htable.carries r
  constructor
  · refine ⟨fun r hused _ => (hcarries r).key hused, fun r hr => ?_, fun r hused hfree =>
      absurd hfree ((hcarries r).state hused)⟩
    rw [htable.fixed r hr]
    exact ⟨rfl, rfl⟩
  · refine ⟨fun hnot => absurd (hstarted.symm.trans hnot) (by decide), ?_, ?_, ?_, ?_⟩
    · rw [hclients]
      exact h.sessions
    · intro r hr
      rw [htable.pinned] at hr
      rw [htable.fixed r hr]
      exact h.pinned r hr
    · intro r hused
      rw [hclients]
      by_cases hbefore : (s.world.table.slot r).state = .free
      · -- Nobody is under a slot that is only now taken into use.
        rw [h.nobody hbefore, (hcarries r).fresh hbefore hused]
        rfl
      · rw [(hcarries r).connections hbefore]
        exact h.counts r hbefore
    · intro c hc r hr
      rw [hclients] at hc
      obtain ⟨hused, hkey⟩ := h.live c hc r hr
      refine ⟨(hcarries r).state hused, ?_⟩
      rw [(hcarries r).key hused]
      exact hkey

variable {base} in
/-- **A sweep.** -/
theorem StableInv.swept {s s' : SlotServer X} (h : StableInv base s)
    (hstarted : s'.started = true) (htable : s.world.table.Sweeps s'.world.table) {forced : List ℕ}
    (hclients : s'.clients = s.clients.map (tcpRpcsDrainForceClose forced)) :
    StableStep s s' ∧ StableInv base s' := by
  constructor
  · refine ⟨fun r hused hused' => ?_, fun r hr => ?_, fun r hused hfree => ?_⟩
    · rcases htable.slot r with hsame | ⟨-, -, -, hzero⟩
      · rw [hsame]
      · rw [hzero] at hused'
        exact absurd rfl hused'
    · rcases htable.slot r with hsame | ⟨hpinned, -, -, -⟩
      · rw [hsame]
        exact ⟨rfl, rfl⟩
      · exact absurd hr (not_lt.mpr hpinned)
    · rcases htable.slot r with hsame | ⟨-, hdraining, hcount, -⟩
      · rw [hsame] at hfree
        exact absurd hfree hused
      · exact ⟨hdraining, hcount⟩
  · refine ⟨fun hnot => absurd (hstarted.symm.trans hnot) (by decide), ?_, ?_, ?_, ?_⟩
    · intro d hd
      rw [hclients] at hd
      obtain ⟨c, hc, rfl⟩ := List.mem_map.mp hd
      exact (h.sessions c hc).forceClose forced
    · intro r hr
      rw [htable.pinned] at hr
      rcases htable.slot r with hsame | ⟨hpinned, -, -, -⟩
      · rw [hsame]
        exact h.pinned r hr
      · exact absurd hr (not_lt.mpr hpinned)
    · intro r hused
      rw [hclients, tally_map _ (tcpRpcsDrainForceClose_secretSlot forced)]
      rcases htable.slot r with hsame | ⟨-, -, -, hzero⟩
      · rw [hsame] at hused ⊢
        exact h.counts r hused
      · rw [hzero] at hused
        exact absurd rfl hused
    · intro d hd r hr
      rw [hclients] at hd
      obtain ⟨c, hc, rfl⟩ := List.mem_map.mp hd
      rw [tcpRpcsDrainForceClose_secretSlot] at hr
      obtain ⟨hused, hkey⟩ := h.live c hc r hr
      rcases htable.slot r with hsame | ⟨-, hdraining, hcount, -⟩
      · rw [hsame]
        refine ⟨hused, hkey.mono ?_⟩
        exact (tcpRpcsDrainForceClose_keeps forced c).2.2 ▸ List.prefix_refl _
      · -- A slot that counts nobody has nobody under it.
        have hpos := tally_pos Conn.secretSlot hc hr
        have hle := h.counts r hused
        rw [hcount] at hle
        omega

/-- **An event about no client that is there.** -/
theorem StableInv.other {s s' : SlotServer X} {e : SlotEvent X} (h : StableInv base s)
    (hstarted : s'.started = true)
    (hother : OtherStep workers base proxyProtocolEnabled s s' e) :
    StableStep s s' ∧ StableInv base s' := by
  have hsetup : s'.started = false → SettingUp s' :=
    fun hnot => absurd (hstarted.symm.trans hnot) (by decide)
  cases hother with
  | calm hworld hclients =>
    refine ⟨.of_same hworld.state hworld.key, hsetup, ?_, ?_, ?_, ?_⟩
    · rw [hclients]
      exact h.sessions
    · intro r hr
      rw [hworld.pinned] at hr
      exact (hworld.state r).trans (h.pinned r hr)
    · intro r hused
      rw [hclients, hworld.connections]
      exact h.counts r ((hworld.state r) ▸ hused)
    · intro c hc r hr
      rw [hclients] at hc
      rw [hworld.state, hworld.key]
      exact h.live c hc r hr
  | @accepted remote ourPort hworld hclients =>
    have hfree : (tcpRpcsExtInitAccepted (slotServer workers base) proxyProtocolEnabled
        (Conn.allocated remote ourPort s.world)).secretSlot = none := rfl
    refine ⟨.of_same (fun r => by rw [hworld]) (fun r => by rw [hworld]), hsetup, ?_, ?_, ?_, ?_⟩
    · intro c hc
      rw [hclients] at hc
      rcases List.mem_append.mp hc with hc | hc
      · exact h.sessions c hc
      · rw [List.mem_singleton.mp hc]
        exact accepted_sessionOk _ _ _ _
    · rw [hworld]
      exact h.pinned
    · intro r hused
      rw [hworld] at hused ⊢
      rw [hclients, tally_concat, weight_of_none _ hfree, Nat.add_zero]
      exact h.counts r hused
    · intro c hc r hr
      rw [hclients] at hc
      rw [hworld]
      rcases List.mem_append.mp hc with hc | hc
      · exact h.live c hc r hr
      · rw [List.mem_singleton.mp hc, hfree] at hr
        exact nomatch hr
  | reloaded _ htable _ _ hclients => exact h.reloaded hstarted htable hclients
  | swept htable _ _ hclients => exact h.swept hstarted htable hclients

/-- A server without clients. -/
theorem StableInv.of_nobody {s : SlotServer X} (hclients : s.clients = [])
    (hsetup : s.started = false → SettingUp s)
    (hpinned : ∀ r < s.world.table.pinned, (s.world.table.slot r).state = .active)
    (hcounts : ∀ r, (s.world.table.slot r).connections = 0) : StableInv base s where
  setup := hsetup
  sessions c hc := absurd (hclients ▸ hc) List.not_mem_nil
  pinned := hpinned
  counts r _ := by
    rw [hclients, hcounts, tally_nil]
    exact le_refl _
  live c hc := absurd (hclients ▸ hc) List.not_mem_nil

/-- Before the server serves, that it is set up is all there is to keep. -/
theorem SettingUp.stableInv {s : SlotServer X} (h : SettingUp s) : StableInv base s :=
  .of_nobody base h.clients (fun _ => h)
    (fun r hr => absurd (h.pinned ▸ hr) (Nat.not_lt_zero r)) h.counts

/-- **A secret is registered** in the first slot that is free. -/
theorem SettingUp.register {s : SlotServer X} (h : SettingUp s) (cfg : SecretConfig) :
    StableStep s (s.withTable (tcpRpcsSetExtSecret s.world.table cfg)) ∧
      SettingUp (s.withTable (tcpRpcsSetExtSecret s.world.table cfg)) := by
  generalize hs' : s.withTable (tcpRpcsSetExtSecret s.world.table cfg) = s'
  have hother {r : ℕ} (hr : r ≠ s.world.table.cnt) :
      s'.world.table.slot r = s.world.table.slot r := by
    rw [← hs']
    exact SecretTable.set_slot_of_ne _ _ hr
  have hself : (s'.world.table.slot s.world.table.cnt).state = .active ∧
      (s'.world.table.slot s.world.table.cnt).connections =
        (s.world.table.slot s.world.table.cnt).connections := by
    rw [← hs', show (s.withTable (tcpRpcsSetExtSecret s.world.table cfg)).world.table.slot
      s.world.table.cnt = _ from SecretTable.set_slot_self _ _ _]
    exact ⟨rfl, rfl⟩
  have hused {r : ℕ} (hr : (s.world.table.slot r).state ≠ .free) : r ≠ s.world.table.cnt := by
    rintro rfl
    exact hr (h.unused _ (le_refl _))
  have hcnt : s'.world.table.cnt = s.world.table.cnt + 1 := hs' ▸ rfl
  constructor
  · refine ⟨fun r hr _ => ?_, fun r hr => ?_, fun r hr hfree => ?_⟩
    · rw [hother (hused hr)]
    · exact absurd (h.pinned ▸ hr) (Nat.not_lt_zero r)
    · rw [hother (hused hr)] at hfree
      exact absurd hfree hr
  · refine ⟨hs' ▸ h.clients, hs' ▸ h.pinned, fun r => ?_, fun r hr => ?_, fun r hr => ?_⟩
    · by_cases hr : r = s.world.table.cnt
      · rw [hr, hself.2]
        exact h.counts _
      · rw [hother hr]
        exact h.counts r
    · by_cases hr' : r = s.world.table.cnt
      · rw [hr']
        exact hself.1
      · rw [hother hr']
        exact h.used r (by omega)
    · rw [hother (by omega)]
      exact h.unused r (by omega)

variable {base} in
/-- **What comes before the server serves.** -/
theorem StableInv.setupStep {s : SlotServer X} (h : StableInv base s) (hstarted : s.started = false)
    (e : SlotEvent X) : StableStep s (slotSetup s e) ∧ StableInv base (slotSetup s e) := by
  have hup := h.setup hstarted
  cases e with
  | register cfg =>
    unfold slotSetup
    dsimp only
    split_ifs
    · obtain ⟨hstep, hup'⟩ := hup.register cfg
      exact ⟨hstep, hup'.stableInv base⟩
    · exact ⟨.refl s, h⟩
  | start =>
    refine ⟨.of_same (fun _ => rfl) (fun _ => rfl), .of_nobody base hup.clients ?_ ?_ hup.counts⟩
    · intro hnot
      exact absurd (show true = false from hnot) (by decide)
    · exact fun r hr => hup.used r hr
  | _ => exact ⟨.refl s, h⟩

/-! ### Runs -/

/-- **One event** keeps the invariant and the slots in use. -/
theorem slotStep_stable {s : SlotServer X} {e : SlotEvent X} (h : StableInv base s)
    (hcond : BlockCond workers base (OpenedInUse base) s e) :
    StableStep s (slotStep workers base proxyProtocolEnabled s e) ∧
      StableInv base (slotStep workers base proxyProtocolEnabled s e) := by
  refine slotStep_inv workers base proxyProtocolEnabled
    (I := fun s' => StableStep s s' ∧ StableInv base s') ⟨.refl s, h⟩ hcond ?_ ?_ ?_ ?_
  · rintro hstarted s' (⟨hkept, hworld, hclients⟩ | ⟨hi, heffect, rfl⟩)
    · exact h.other workers base proxyProtocolEnabled (e := e) (hkept.trans hstarted)
        (.calm (hworld ▸ .refl _) hclients)
    · exact h.parse workers base hstarted hi heffect
  · exact fun hstarted i c hi => h.closed hstarted hi
  · exact fun _ s' hstarted hother => h.other workers base proxyProtocolEnabled hstarted hother
  · exact fun hstarted => h.setupStep hstarted e

theorem start_settingUp (now : ℤ) (preciseNow : ℚ) (rest : X) :
    SettingUp (SlotServer.start now preciseNow rest) :=
  ⟨rfl, rfl, fun _ => rfl, fun r hr => absurd hr (Nat.not_lt_zero r), fun _ _ => rfl⟩

/-- **A slot in use keeps its secret**, in every run of a server in which no block is opened while
no slot is in use: the events change the slots as `StableStep` says, the pinned slots stay active,
and no connection is ever under a free slot or one with another key. -/
theorem slotRun_stable (now : ℤ) (preciseNow : ℚ) (rest : X) (es : List (SlotEvent X))
    (hcond : Along (slotStep workers base proxyProtocolEnabled)
      (BlockCond workers base (OpenedInUse base)) (.start now preciseNow rest) es) :
    Along (slotStep workers base proxyProtocolEnabled)
        (fun s e => StableStep s (slotStep workers base proxyProtocolEnabled s e))
        (.start now preciseNow rest) es ∧
      Throughout (slotStep workers base proxyProtocolEnabled)
        (fun s => (∀ r < s.world.table.pinned, (s.world.table.slot r).state = .active) ∧
          LiveSlots base s) (.start now preciseNow rest) es := by
  have hstart : StableInv base (.start now preciseNow rest) :=
    (start_settingUp now preciseNow rest).stableInv base
  constructor
  · exact along_of_inv (I := StableInv base)
      (fun _ _ hinv he => (slotStep_stable workers base proxyProtocolEnabled hinv he).2)
      (fun _ _ hinv he => (slotStep_stable workers base proxyProtocolEnabled hinv he).1)
      hstart hcond
  · have hall := throughout_of_along (I := StableInv base)
      (fun _ _ hinv he => (slotStep_stable workers base proxyProtocolEnabled hinv he).2)
      hstart hcond
    exact hall.imp fun s hs => ⟨hs.pinned, hs.live⟩

end Stable

/-! ### A plain client -/

/-- A server whose clients go to a data centre, with what comes of the attempts to reach it. -/
def directServer (dial : Option Outbound) : ExtServerEnv Unit :=
  { sampleServer with
    directMode := true
    directDcKnown := fun _ _ => true
    directTryDcAddrs := fun w _ => (dial, w) }

/-- A block of a plain client, in which a line ends twice. -/
def lineBlock : Bytes :=
  [1, 1, 1, 1, 13, 10, 13, 10] ++ List.replicate 48 1 ++ List.replicate 4 0xdd ++ [2, 0, 0, 0]

section Plain

variable (dial : Option Outbound) (w : SlotWorld Unit)

/-- A plain client that has been accepted and has sent its block. -/
def plainClient : Conn (SlotWorld Unit) :=
  { tcpRpcsExtInitAccepted (slotServer 1 (directServer dial)) false
      (Conn.allocated ⟨0x7f000001, [], 50000, false⟩ 443 w) with inp := lineBlock }

/-- The client at its block. -/
def plainAtBlock : Conn (SlotWorld Unit) := { plainClient dial w with wsState := .none }

/-- The client behind its block, with or without a connection to its data centre. -/
def plainTried (pr : Obfs2ParseResult) : Conn (SlotWorld Unit) :=
  directConnectToDc (slotServer 1 (directServer dial)).toOutboundEnv
    (countSession (slotServer 1 (directServer dial))
      (setTarget (startCrypto (slotServer 1 (directServer dial))
        ((plainAtBlock dial w).record (.obfs2Header lineBlock)) pr) pr 0) 0)

variable {w}

set_option maxRecDepth 10000 in
theorem plainReaches : ReachesBlock (slotServer 1 (directServer dial)) (plainClient dial w) (plainAtBlock dial w) :=
  ⟨_, _, _, rfl, rfl, rfl, rfl, rfl⟩

/-- A secret whose checks pass changes nothing. -/
theorem admitSlot_admitted {W : Type*} (env : ExtServerEnv W) {slot : ℕ} {c : Conn W}
    (h : env.admits c.world slot c.remote = (true, c.world)) : admitSlot env slot c = .ok c := by
  unfold admitSlot
  split_ifs
  · rfl
  · rw [h]

/-- The turn that reads the block. -/
theorem lineBlock_stages {pr : Obfs2ParseResult}
    (hopened : openBlock (directServer dial) (plainAtBlock dial w) = some pr)
    (hslot : matchedSlot (directServer dial) (plainAtBlock dial w) pr = 0)
    (hadmissible : (w.table.slot 0).Admissible 1 w.now ⟨0x7f000001, [], 50000, false⟩) :
    parseStages (slotServer 1 (directServer dial)) (plainClient dial w) =
      .error (.ret (plainTried dial w pr) 0) := by
  have hdecrypt : cpuTcpAesCryptoCtr128DecryptInput (startCrypto (slotServer 1 (directServer dial))
      ((plainAtBlock dial w).record (.obfs2Header lineBlock)) pr) =
    .ok (startCrypto (slotServer 1 (directServer dial))
      ((plainAtBlock dial w).record (.obfs2Header lineBlock)) pr, 0) :=
    loop_of_done decryptTurn_shrinks rfl
  have hadmits : admitSlot (slotServer 1 (directServer dial)) 0
      (setTarget (startCrypto (slotServer 1 (directServer dial))
        ((plainAtBlock dial w).record (.obfs2Header lineBlock)) pr) pr 0) =
    .ok (setTarget (startCrypto (slotServer 1 (directServer dial))
        ((plainAtBlock dial w).record (.obfs2Header lineBlock)) pr) pr 0) := by
    refine admitSlot_admitted _ ?_
    show (decide ((w.table.slot 0).Admissible 1 w.now ⟨0x7f000001, [], 50000, false⟩), w) = (true, w)
    rw [decide_eq_true hadmissible]
  have haccept : acceptObfs2 (slotServer 1 (directServer dial)) pr 0
      ((plainAtBlock dial w).record (.obfs2Header lineBlock)) = .error (.ret (plainTried dial w pr) 0) := by
    unfold acceptObfs2
    rw [hdecrypt]
    dsimp only
    rw [if_neg (by decide), hadmits]
    rfl
  have hlen : ¬ lineBlock.length < 64 := by decide
  rw [parseStages_of_reaches _ (plainReaches dial), obfs2Header,
    if_neg (show ¬ (plainAtBlock dial w).inp.length < 64 from hlen)]
  dsimp only
  rw [show obfs2ParseHeader (slotServer 1 (directServer dial)).prim ((plainAtBlock dial w).inp.take 64)
    ((slotsInUse ((slotServer 1 (directServer dial)).secrets (plainAtBlock dial w).world)).map Prod.snd)
    (slotServer 1 (directServer dial)).extRandPadOnly = some pr from hopened]
  dsimp only
  rw [show ((slotsInUse ((slotServer 1 (directServer dial)).secrets (plainAtBlock dial w).world)).map
    Prod.fst).getD pr.secretId (slotServer 1 (directServer dial)).staleSlot = 0 from hslot]
  exact haccept

/-- The call that reads the block. -/
theorem lineBlock_parse {pr : Obfs2ParseResult}
    (hopened : openBlock (directServer dial) (plainAtBlock dial w) = some pr)
    (hslot : matchedSlot (directServer dial) (plainAtBlock dial w) pr = 0)
    (hadmissible : (w.table.slot 0).Admissible 1 w.now ⟨0x7f000001, [], 50000, false⟩) :
    clientParseExecute (slotServer 1 (directServer dial)) (plainClient dial w) = .ok (plainTried dial w pr, 0) :=
  tcpRpcsCompactParseExecute_of_error _ (lineBlock_stages dial hopened hslot hadmissible)

/-- There is no other block in this call. -/
theorem lineBlock_eachBlock {cond : Conn (SlotWorld Unit) → Prop} {pr : Obfs2ParseResult}
    (hopened : openBlock (directServer dial) (plainAtBlock dial w) = some pr)
    (hslot : matchedSlot (directServer dial) (plainAtBlock dial w) pr = 0)
    (hadmissible : (w.table.slot 0).Admissible 1 w.now ⟨0x7f000001, [], 50000, false⟩)
    (hcond : cond (plainAtBlock dial w)) : EachBlock 1 (directServer dial) cond (plainClient dial w) := by
  refine fun _ => .done ?_ (parseTurn_of_error _ (lineBlock_stages dial hopened hslot hadmissible))
  intro c hc
  rw [← (plainReaches dial).unique _ hc]
  exact hcond

/-- What opens the block under a secret, or without one. -/
def lineOpened (secret : Option Bytes) : Obfs2ParseResult :=
  ⟨OBFS2_TAG_PAD, 2, 0, obfs2Keys sampleServer.prim lineBlock secret⟩

theorem lineOpened_secret :
    obfs2ParseHeader sampleServer.prim lineBlock [List.replicate 16 0] false =
      some (lineOpened (some (List.replicate 16 0))) := by decide +kernel

theorem lineOpened_none :
    obfs2ParseHeader sampleServer.prim lineBlock [] false = some (lineOpened none) := by
  decide +kernel

end Plain

/-- A client under a secret that is registered. -/
theorem slotRun_stable_plain :
    Along (slotStep 1 (directServer none) false)
        (fun s e => StableStep s (slotStep 1 (directServer none) false s e))
        (.start 0 0 ()) [.register sampleSecret, .start, .accept ⟨0x7f000001, [], 50000, false⟩ 443,
          .read 0 (plainClient none sampleSlots), .parse 0] ∧
      Throughout (slotStep 1 (directServer none) false)
        (fun s => (∀ r < s.world.table.pinned, (s.world.table.slot r).state = .active) ∧
          LiveSlots (directServer none) s)
        (.start 0 0 ()) [.register sampleSecret, .start, .accept ⟨0x7f000001, [], 50000, false⟩ 443,
          .read 0 (plainClient none sampleSlots), .parse 0] := by
  refine slotRun_stable 1 (directServer none) false 0 0 () _ ⟨trivial, trivial, trivial, trivial, ?_,
    trivial⟩
  intro c hc
  rw [← Option.some.inj hc]
  refine lineBlock_eachBlock none (w := sampleSlots) lineOpened_secret rfl (by decide) ?_
  intro pr _ _
  show slotsInUse sampleSlots.table.secrets ≠ []
  decide

/-- The world without secrets. -/
def emptySlots : SlotWorld Unit :=
  ⟨tcpRpcsPinExtSecrets SecretTable.empty, 0, 0, 0, (), []⟩

/-- **A connection can be under a free slot**: a block that spells its own keys, sent to a server
without secrets. -/
theorem slotRun_not_stable :
    ¬ ∀ es, Throughout (slotStep 1 (directServer none) false) (LiveSlots (directServer none))
      (.start 0 0 ()) es := by
  intro hall
  have hrun := (hall ([.start, .accept ⟨0x7f000001, [], 50000, false⟩ 443,
    .read 0 (plainClient none emptySlots)] ++ [.parse 0])).finish
  have hparse := lineBlock_parse none (w := emptySlots) lineOpened_none rfl (by decide)
  have hstep : slotStep 1 (directServer none) false (sampleServing emptySlots [plainClient none emptySlots])
      (.parse 0) = (sampleServing emptySlots [plainClient none emptySlots]).put 0
        (plainTried none emptySlots (lineOpened none)) :=
    slotStep_parse 1 (directServer none) false (i := 0) (c := plainClient none emptySlots) rfl rfl rfl hparse
  rw [finish_append, show finish (slotStep 1 (directServer none) false) (.start 0 0 ())
    [.start, .accept ⟨0x7f000001, [], 50000, false⟩ 443, .read 0 (plainClient none emptySlots)] =
      sampleServing emptySlots [plainClient none emptySlots] from rfl, finish_cons, hstep] at hrun
  have hlive := hrun (plainTried none emptySlots (lineOpened none)) (List.mem_singleton.mpr rfl) 0 rfl
  exact hlive.1 rfl

end Server
end Teleproto3
