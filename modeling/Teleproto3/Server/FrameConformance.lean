/-
# The frames a server admits

A client's frames are to be masked, with reserved bits of zero and an opcode that is none of TEXT
and those without a meaning; any other frame is to close the connection (section 2 of
`spec/wire-format.md`).  `ws_parse_frame_header` looks at none of this: it refuses a CLOSE and a
payload of 2 GiB or more, and goes on behind every other header.

A `FrameLog` records what becomes of the frames as the server reads them: the headers that are all
there and are not refused, and the payload with the frame it was delivered for.  `FrameLoop` is a
loop that reads frames with such a record, of which there are two, before there is a cipher
(`wsUnwrapFrames`) and with it (`decryptFrames`).
-/

import Teleproto3.Lib.Runs
import Teleproto3.Server.FrameHeaders
import Teleproto3.Server.FrameUnwrap

namespace Teleproto3
namespace Server

open Lib Wire

/-! ### Conforming frames -/

/-- **What a client's header has to be.** -/
structure ConformingHead (h : WsHead) : Prop where
  masked : h.masked = true
  reserved : h.first.toNat / 16 % 8 = 0
  opcode : h.opcode = 0x0 ∨ h.opcode = 0x2 ∨ h.opcode = 0x8 ∨ h.opcode = 0x9 ∨ h.opcode = 0xA

/-- A header of a frame whose payload is a client's data. -/
structure PayloadHead (h : WsHead) : Prop extends ConformingHead h where
  data : h.opcode = 0x0 ∨ h.opcode = 0x2

/-- The opcode is none of CLOSE, PING and PONG. -/
def IsDataHead (h : WsHead) : Prop := h.opcode ≠ 0x8 ∧ h.opcode ≠ 0x9 ∧ h.opcode ≠ 0xA

instance (h : WsHead) : Decidable (IsDataHead h) := inferInstanceAs (Decidable (_ ∧ _))

theorem ConformingHead.payloadHead {h : WsHead} (hc : ConformingHead h) (hdata : IsDataHead h) :
    PayloadHead h := by
  obtain ⟨h8, h9, hA⟩ := hdata
  refine ⟨hc, ?_⟩
  rcases hc.opcode with h | h | h | h | h
  · exact .inl h
  · exact .inr h
  · exact absurd h h8
  · exact absurd h h9
  · exact absurd h hA

/-- The header at the front of the input, if it is all there and is not refused. -/
def headAdmitted (input : Bytes) : Option WsHead :=
  match WsHead.read input with
  | some (h, rest) =>
    if 2 ^ 31 ≤ h.length.value ∨ h.opcode = 0x8 ∨ h.masked = true ∧ rest.length < 4 then none
    else some h
  | none => none

/-- **A header that is admitted** is read, whatever it is. -/
theorem wsParseFrameHeader_admitted {w : WsIn} {h : WsHead}
    (hadmitted : headAdmitted w.input = some h) :
    ∃ rest, wsParseFrameHeader w =
      wsFrameOpcode (w.keyed h rest) h.opcode (headerLen h) h.length.value ∧ h.opcode ≠ 0x8 := by
  unfold headAdmitted at hadmitted
  split at hadmitted
  · next h' rest hread =>
    split_ifs at hadmitted with hrefused
    obtain rfl := Option.some.inj hadmitted
    rw [not_or, not_or] at hrefused
    obtain ⟨hbig, hclose, hshort⟩ := hrefused
    refine ⟨rest, ?_, hclose⟩
    rw [wsParseFrameHeader_head (WsHead.read_eq_some_iff.mp hread), if_neg hbig, if_neg hshort]
  · simp at hadmitted

/-- **Any other** is refused, or waited for without a change. -/
theorem wsParseFrameHeader_not_admitted {w : WsIn} (h : headAdmitted w.input = none) :
    (∃ w', w'.remaining = w.remaining ∧ wsParseFrameHeader w = .ok (w', -1)) ∨
      wsParseFrameHeader w = .ok (w, 0) := by
  rcases WsHead.cases w.input with ⟨head, rest, hw⟩ | ⟨head, hpart⟩
  · rw [headAdmitted, WsHead.read_eq_some_iff.mpr hw] at h
    dsimp only at h
    split_ifs at h with hrefused
    rw [wsParseFrameHeader_head hw]
    split_ifs with hbig hshort
    · exact .inl ⟨w, rfl, rfl⟩
    · exact .inr rfl
    · have hclose : head.opcode = 0x8 := (hrefused.resolve_left hbig).resolve_right hshort
      exact .inl ⟨_, w.keyed_remaining head rest, if_pos hclose⟩
  · exact .inr (wsParseFrameHeader_part hpart)

/-- What `ws_parse_frame_header` returns for a header that is admitted is no refusal. -/
theorem wsFrameOpcode_ret {w w' : WsIn} {opcode headerLen payloadLen : ℕ} {ret : ℤ}
    (hopcode : opcode ≠ 0x8)
    (h : wsFrameOpcode w opcode headerLen payloadLen = .ok (w', ret)) :
    0 ≤ ret ∧ (ret = 0 → w.remaining = 0 → w'.remaining = 0) ∧
      (0 < ret → opcode ≠ 0x9 ∧ opcode ≠ 0xA) := by
  unfold wsFrameOpcode at h
  rw [if_neg hopcode] at h
  dsimp only at h
  generalize wrap32 ((headerLen : ℤ) + payloadLen) = whole at h
  split_ifs at h with hcontrol
  · obtain ⟨rfl, rfl⟩ := Prod.mk.inj (Except.ok.inj h)
    exact ⟨le_refl _, fun _ => id, fun hpos => absurd hpos (lt_irrefl 0)⟩
  · obtain ⟨rfl, rfl⟩ := Prod.mk.inj (Except.ok.inj h)
    exact ⟨le_refl _, fun _ => id, fun hpos => absurd hpos (lt_irrefl 0)⟩
  · obtain ⟨rfl, rfl⟩ := Prod.mk.inj (Except.ok.inj h)
    exact ⟨le_refl _, fun _ => id, fun hpos => absurd hpos (lt_irrefl 0)⟩
  · obtain ⟨rfl, rfl⟩ := Prod.mk.inj (Except.ok.inj h)
    refine ⟨Int.natCast_nonneg _, fun hzero _ => ?_, fun _ => not_or.mp hcontrol⟩
    exact_mod_cast hzero

/-- **What a header comes to**, between two frames: where payload is to follow, an admitted header
with an opcode of data; elsewhere no payload is left. -/
theorem wsParseFrameHeader_front {w w' : WsIn} {ret : ℤ} (hzero : w.remaining = 0)
    (h : wsParseFrameHeader w = .ok (w', ret)) :
    (0 < ret → ∃ head, headAdmitted w.input = some head ∧ IsDataHead head) ∧
      (ret ≤ 0 → w'.remaining = 0) := by
  cases hadmitted : headAdmitted w.input with
  | none =>
    rcases wsParseFrameHeader_not_admitted hadmitted with ⟨v, hv, hparse⟩ | hparse
    · obtain ⟨rfl, rfl⟩ := Prod.mk.inj (Except.ok.inj (hparse.symm.trans h))
      exact ⟨fun hpos => absurd hpos (by decide), fun _ => hv.trans hzero⟩
    · obtain ⟨rfl, rfl⟩ := Prod.mk.inj (Except.ok.inj (hparse.symm.trans h))
      exact ⟨fun hpos => absurd hpos (lt_irrefl 0), fun _ => hzero⟩
  | some head =>
    obtain ⟨rest, hparse, hclose⟩ := wsParseFrameHeader_admitted hadmitted
    rw [hparse] at h
    obtain ⟨hnonneg, hkept, hdata⟩ := wsFrameOpcode_ret hclose h
    exact ⟨fun hpos => ⟨head, rfl, hclose, hdata hpos⟩,
      fun hle => hkept (le_antisymm hle hnonneg) (by simp [hzero])⟩

/-! ### The record -/

/-- The frame the server is in, the headers it has admitted, and the payload it has delivered
with the frame it took it for. -/
structure FrameLog where
  reading : Option WsHead
  admitted : List WsHead
  delivered : List (Option WsHead × Bytes)
  deriving DecidableEq, Repr

namespace FrameLog

/-- The front of the input is looked at for a header. -/
def look (log : FrameLog) (front : Option Bytes) : FrameLog :=
  match front.bind headAdmitted with
  | none => log
  | some h =>
    { log with
      admitted := log.admitted ++ [h]
      reading := if IsDataHead h then some h else log.reading }

/-- Payload is delivered. -/
def deliver (log : FrameLog) (payload : Bytes) : FrameLog :=
  { log with delivered := log.delivered ++ [(log.reading, payload)] }

/-- All the payload there is. -/
def payload (log : FrameLog) : Bytes := log.delivered.flatMap Prod.snd

/-- **The server conforms**: every header that it goes on behind is one a client has to send, and
every payload that it delivers is that of a conforming frame with data. -/
structure Conforming (log : FrameLog) : Prop where
  admitted : ∀ h ∈ log.admitted, ConformingHead h
  delivered : ∀ p ∈ log.delivered, ∃ h, p.1 = some h ∧ PayloadHead h

/-- The server is in a conforming frame with data. -/
def InPayload (log : FrameLog) : Prop := ∃ h, log.reading = some h ∧ PayloadHead h

/-- The front of the input is no header that is admitted, or a conforming one. -/
def FrontConforms (front : Option Bytes) : Prop :=
  ∀ h, front.bind headAdmitted = some h → ConformingHead h

variable {log : FrameLog} {front : Option Bytes}

theorem look_of_none (h : front.bind headAdmitted = none) : log.look front = log := by
  rw [look, h]

theorem look_of_some {head : WsHead} (h : front.bind headAdmitted = some head) :
    log.look front =
      { log with
        admitted := log.admitted ++ [head]
        reading := if IsDataHead head then some head else log.reading } := by
  rw [look, h]

@[simp] theorem look_payload : (log.look front).payload = log.payload := by
  cases h : front.bind headAdmitted with
  | none => rw [look_of_none h]
  | some head => rw [look_of_some h]; rfl

@[simp] theorem deliver_payload (bytes : Bytes) :
    (log.deliver bytes).payload = log.payload ++ bytes := by
  simp [payload, deliver]

/-- A look keeps the record conforming exactly where the front conforms. -/
theorem look_conforming_iff :
    (log.look front).Conforming ↔ log.Conforming ∧ FrontConforms front := by
  cases hfront : front.bind headAdmitted with
  | none =>
    rw [look_of_none hfront]
    refine ⟨fun h => ⟨h, fun head hhead => ?_⟩, And.left⟩
    rw [hfront] at hhead
    simp at hhead
  | some head =>
    rw [look_of_some hfront]
    constructor
    · rintro ⟨hadmitted, hdelivered⟩
      refine ⟨⟨fun h hh => hadmitted h (List.mem_append_left _ hh), hdelivered⟩, fun h hh => ?_⟩
      obtain rfl := Option.some.inj (hfront.symm.trans hh)
      exact hadmitted head (by simp)
    · rintro ⟨⟨hadmitted, hdelivered⟩, hconforms⟩
      refine ⟨fun h hh => ?_, hdelivered⟩
      rcases List.mem_append.mp hh with hh | hh
      · exact hadmitted h hh
      · rw [List.mem_singleton.mp hh]
        exact hconforms head hfront

/-- A conforming header of data is the frame the server is then in. -/
theorem look_inPayload {head : WsHead} (h : front.bind headAdmitted = some head)
    (hdata : IsDataHead head) (hconforms : FrontConforms front) : (log.look front).InPayload := by
  rw [look_of_some h]
  exact ⟨head, if_pos hdata, (hconforms head h).payloadHead hdata⟩

theorem deliver_conforming_iff (payload : Bytes) :
    (log.deliver payload).Conforming ↔ log.Conforming ∧ log.InPayload := by
  constructor
  · rintro ⟨hadmitted, hdelivered⟩
    exact ⟨⟨hadmitted, fun p hp => hdelivered p (List.mem_append_left _ hp)⟩,
      hdelivered (log.reading, payload) (by simp [deliver])⟩
  · rintro ⟨⟨hadmitted, hdelivered⟩, hreading⟩
    refine ⟨hadmitted, fun p hp => ?_⟩
    rcases List.mem_append.mp hp with hp | hp
    · exact hdelivered p hp
    · rw [List.mem_singleton.mp hp]
      exact hreading

end FrameLog

/-! ### Loops over frames -/

/-- A loop that reads frames: what of the input a turn looks at for a header, whether it is
within a frame, and where the payload goes.  A turn that is followed by another is within a
frame with data, or has admitted the header of one. -/
structure FrameLoop (σ ρ : Type*) where
  turn : σ → Turn σ ρ
  size : σ → ℕ
  shrinks : Shrinks turn size
  valid : σ → Prop
  front : σ → Option Bytes
  within : σ → Prop
  withinEnd : ρ → Prop
  out : σ → Bytes
  outEnd : ρ → Option Bytes
  valid_again : ∀ {s s'}, valid s → turn s = .again s' → valid s'
  again : ∀ {s s'}, valid s → turn s = .again s' →
    within s ∧ front s = none ∨ ∃ h, (front s).bind headAdmitted = some h ∧ IsDataHead h
  done : ∀ {s r}, valid s → turn s = .done r → withinEnd r →
    within s ∧ front s = none ∨ ∃ h, (front s).bind headAdmitted = some h ∧ IsDataHead h
  grows : ∀ {s s'}, valid s → turn s = .again s' → out s <+: out s'
  rests : ∀ {s r b}, valid s → turn s = .done r → outEnd r = some b → b = out s

namespace FrameLoop

variable {σ ρ : Type*} (L : FrameLoop σ ρ)

/-- One turn of the loop with the record. -/
def logTurn (y : σ × FrameLog) : Turn (σ × FrameLog) (ρ × FrameLog) :=
  let log := y.2.look (L.front y.1)
  match L.turn y.1 with
  | .again s => .again (s, log.deliver ((L.out s).drop (L.out y.1).length))
  | .done r => .done (r, log)

theorem logTurn_of_again {y : σ × FrameLog} {s : σ} (h : L.turn y.1 = .again s) :
    L.logTurn y =
      .again (s, (y.2.look (L.front y.1)).deliver ((L.out s).drop (L.out y.1).length)) := by
  rw [logTurn, h]

theorem logTurn_of_done {y : σ × FrameLog} {r : ρ} (h : L.turn y.1 = .done r) :
    L.logTurn y = .done (r, y.2.look (L.front y.1)) := by
  rw [logTurn, h]

theorem of_logTurn_again {y y' : σ × FrameLog} (h : L.logTurn y = .again y') :
    L.turn y.1 = .again y'.1 ∧
      y'.2 = (y.2.look (L.front y.1)).deliver ((L.out y'.1).drop (L.out y.1).length) := by
  cases hturn : L.turn y.1 with
  | done r =>
    rw [L.logTurn_of_done hturn] at h
    simp at h
  | again s =>
    rw [L.logTurn_of_again hturn] at h
    obtain rfl := Turn.again.inj h
    exact ⟨rfl, rfl⟩

theorem of_logTurn_done {y : σ × FrameLog} {r : ρ × FrameLog} (h : L.logTurn y = .done r) :
    L.turn y.1 = .done r.1 ∧ r.2 = y.2.look (L.front y.1) := by
  cases hturn : L.turn y.1 with
  | again s =>
    rw [L.logTurn_of_again hturn] at h
    simp at h
  | done r' =>
    rw [L.logTurn_of_done hturn] at h
    obtain rfl := Turn.done.inj h
    exact ⟨rfl, rfl⟩

/-- A turn without the record. -/
theorem logTurn_map (y : σ × FrameLog) : L.turn y.1 = (L.logTurn y).map Prod.fst Prod.fst := by
  cases h : L.turn y.1 with
  | again s => rw [L.logTurn_of_again h, Turn.map]
  | done r => rw [L.logTurn_of_done h, Turn.map]

theorem logTurn_shrinks : Shrinks L.logTurn fun y => L.size y.1 := by
  intro y y' h
  refine L.shrinks y.1 y'.1 ?_
  rw [L.logTurn_map, h, Turn.map]

/-- The loop with the record. -/
def logged (s : σ) (log : FrameLog) : ρ × FrameLog :=
  loop L.logTurn (fun y => L.size y.1) L.logTurn_shrinks (s, log)

/-- **The record changes nothing.** -/
theorem logged_fst (s : σ) (log : FrameLog) :
    (L.logged s log).1 = loop L.turn L.size L.shrinks s :=
  (loop_map (I := fun _ => True) L.logTurn_shrinks L.shrinks Prod.fst Prod.fst
    (fun _ _ _ _ => trivial) (fun y _ => L.logTurn_map y) trivial (s := (s, log))).symm

/-- **Every byte that is put out is on the record.** -/
theorem logged_payload {s : σ} {log : FrameLog} {b : Bytes} (hs : L.valid s)
    (h : L.outEnd (L.logged s log).1 = some b) :
    ∃ more, b = L.out s ++ more ∧ (L.logged s log).2.payload = log.payload ++ more := by
  refine loop_inv
    (I := fun y => L.valid y.1 ∧
      ∃ more, L.out y.1 = L.out s ++ more ∧ y.2.payload = log.payload ++ more)
    (Q := fun r => ∀ b, L.outEnd r.1 = some b →
      ∃ more, b = L.out s ++ more ∧ r.2.payload = log.payload ++ more)
    L.logTurn_shrinks ?_ ?_ ⟨hs, [], by simp, by simp⟩ b h
  · rintro y y' ⟨hvalid, more, hout, hlog⟩ hagain
    obtain ⟨hturn, hlog'⟩ := L.of_logTurn_again hagain
    obtain ⟨next, hnext⟩ := L.grows hvalid hturn
    refine ⟨L.valid_again hvalid hturn, more ++ next, ?_, ?_⟩
    · rw [← hnext, hout, List.append_assoc]
    · rw [hlog', FrameLog.deliver_payload, FrameLog.look_payload, hlog, ← hnext, List.drop_left,
        List.append_assoc]
  · rintro y r ⟨hvalid, more, hout, hlog⟩ hdone b hb
    obtain ⟨hturn, hlog'⟩ := L.of_logTurn_done hdone
    refine ⟨more, (L.rests hvalid hturn hb).trans hout, ?_⟩
    rw [hlog', FrameLog.look_payload, hlog]

/-- A record that does not conform never will. -/
theorem conforming_of_logged {s : σ} {log : FrameLog} (h : (L.logged s log).2.Conforming) :
    log.Conforming := by
  refine loop_inv (I := fun y => y.2.Conforming → log.Conforming)
    (Q := fun r => r.2.Conforming → log.Conforming) L.logTurn_shrinks ?_ ?_ id h
  · intro y y' hy hagain hgood
    rw [(L.of_logTurn_again hagain).2, FrameLog.deliver_conforming_iff,
      FrameLog.look_conforming_iff] at hgood
    exact hy hgood.1.1
  · intro y r hy hdone hgood
    rw [(L.of_logTurn_done hdone).2, FrameLog.look_conforming_iff] at hgood
    exact hy hgood.1

/-- The condition for a turn. -/
def FrontConforms (s : σ) : Prop := FrameLog.FrontConforms (L.front s)

/-- What holds between the turns: the record conforms, and within a frame it is one with data. -/
structure Holds (y : σ × FrameLog) : Prop where
  valid : L.valid y.1
  conforming : y.2.Conforming
  reading : L.within y.1 → y.2.InPayload

variable {L} in
/-- A look at a front that conforms leaves the server in the frame it reads. -/
theorem Holds.look {y : σ × FrameLog} (h : L.Holds y) (hconforms : L.FrontConforms y.1)
    (hturn : L.within y.1 ∧ L.front y.1 = none ∨
      ∃ head, (L.front y.1).bind headAdmitted = some head ∧ IsDataHead head) :
    (y.2.look (L.front y.1)).InPayload := by
  rcases hturn with ⟨hwithin, hnone⟩ | ⟨head, hhead, hdata⟩
  · rw [FrameLog.look_of_none (by rw [hnone]; rfl)]
    exact h.reading hwithin
  · exact FrameLog.look_inPayload hhead hdata hconforms

variable {L} in
/-- A turn with such a front keeps what holds between the turns. -/
theorem Holds.next {y y' : σ × FrameLog} (h : L.Holds y) (hconforms : L.FrontConforms y.1)
    (hturn : L.turn y.1 = .again y'.1)
    (hlog : y'.2 = (y.2.look (L.front y.1)).deliver ((L.out y'.1).drop (L.out y.1).length)) :
    L.Holds y' := by
  have hreading := h.look hconforms (L.again h.valid hturn)
  refine ⟨L.valid_again h.valid hturn, ?_, fun _ => ?_⟩
  · rw [hlog, FrameLog.deliver_conforming_iff, FrameLog.look_conforming_iff]
    exact ⟨⟨h.conforming, hconforms⟩, hreading⟩
  · rw [hlog]
    exact hreading

/-- The turns are the same with the record. -/
theorem eachTurn_logTurn (s : σ) (log : FrameLog) :
    EachTurn L.turn L.FrontConforms s ↔
      EachTurn L.logTurn (fun y => L.FrontConforms y.1) (s, log) :=
  eachTurn_map Prod.fst Prod.fst L.logTurn_map L.logTurn_shrinks (s := (s, log))

/-- **The exact condition for a loop**: it leaves a conforming record exactly where every turn
finds a front that conforms. -/
theorem logged_conforming_iff {s : σ} {log : FrameLog} (h : L.Holds (s, log)) :
    (L.logged s log).2.Conforming ↔ EachTurn L.turn L.FrontConforms s := by
  rw [L.eachTurn_logTurn s log]
  refine loop_iff_of_lost (I := L.Holds) (Q := fun r => r.2.Conforming)
    (B := fun y => ¬ y.2.Conforming) L.logTurn_shrinks ?_ ?_ ?_ ?_ h
  · intro y y' hy hagain
    obtain ⟨hturn, hlog⟩ := L.of_logTurn_again hagain
    by_cases hconforms : L.FrontConforms y.1
    · exact .inl ⟨hconforms, hy.next hconforms hturn hlog⟩
    · refine .inr ⟨hconforms, fun hgood => hconforms ?_⟩
      rw [hlog, FrameLog.deliver_conforming_iff, FrameLog.look_conforming_iff] at hgood
      exact hgood.1.2
  · intro y y' hbad hagain hgood
    rw [(L.of_logTurn_again hagain).2, FrameLog.deliver_conforming_iff,
      FrameLog.look_conforming_iff] at hgood
    exact hbad hgood.1.1
  · intro y r hy hdone
    rw [(L.of_logTurn_done hdone).2]
    exact FrameLog.look_conforming_iff.trans (and_iff_right hy.conforming)
  · intro y r hbad hdone hgood
    rw [(L.of_logTurn_done hdone).2, FrameLog.look_conforming_iff] at hgood
    exact hbad hgood.1

/-- **Behind such a loop** the server is between two frames, or in a conforming one with data. -/
theorem logged_reading {s : σ} {log : FrameLog} (h : L.Holds (s, log))
    (hturns : EachTurn L.turn L.FrontConforms s) :
    L.withinEnd (L.logged s log).1 → (L.logged s log).2.InPayload := by
  rw [L.eachTurn_logTurn s log] at hturns
  refine loop_inv_of_eachTurn (I := L.Holds)
    (Q := fun r => L.withinEnd r.1 → r.2.InPayload) L.logTurn_shrinks ?_ ?_ h hturns
  · intro y y' hy hconforms hagain
    obtain ⟨hturn, hlog⟩ := L.of_logTurn_again hagain
    exact hy.next hconforms hturn hlog
  · intro y r hy hconforms hdone hwithin
    obtain ⟨hturn, hlog⟩ := L.of_logTurn_done hdone
    rw [hlog]
    exact hy.look hconforms (L.done hy.valid hturn hwithin)

/-- So it is wherever the record conforms. -/
theorem logged_inPayload {s : σ} {log : FrameLog} (hvalid : L.valid s)
    (hreading : log.Conforming → L.within s → log.InPayload)
    (h : (L.logged s log).2.Conforming) :
    L.withinEnd (L.logged s log).1 → (L.logged s log).2.InPayload := by
  have hlog := L.conforming_of_logged h
  have hholds : L.Holds (s, log) := ⟨hvalid, hlog, hreading hlog⟩
  exact L.logged_reading hholds ((L.logged_conforming_iff hholds).mp h)

end FrameLoop

/-! ### The two loops -/

theorem wsTakeTurn_again_unmasked {u v : WsUnwrap} (h : wsTakeTurn u = .again v) :
    u.unmasked <+: v.unmasked := by
  unfold wsTakeTurn at h
  dsimp only at h
  split_ifs at h
  rw [← Turn.again.inj h]
  exact List.prefix_append _ _

theorem wsTakeTurn_done_unmasked {u v : WsUnwrap} {alive : Bool}
    (h : wsTakeTurn u = .done (.ok (v, alive))) : v.unmasked = u.unmasked := by
  unfold wsTakeTurn at h
  dsimp only at h
  split_ifs at h
  obtain ⟨rfl, -⟩ := Prod.mk.inj (Except.ok.inj (Turn.done.inj h))
  rfl

theorem wsUnwrapTurn_again_unmasked {u v : WsUnwrap} (h : wsUnwrapTurn u = .again v) :
    u.unmasked <+: v.unmasked := by
  unfold wsUnwrapTurn at h
  split_ifs at h with hempty hzero
  · cases hparse : wsParseFrameHeader u.frames with
    | error a => simp [hparse] at h
    | ok p =>
      rw [hparse] at h
      dsimp only at h
      split_ifs at h
      exact wsTakeTurn_again_unmasked (u := { u with frames := p.1 }) h
  · exact wsTakeTurn_again_unmasked h

theorem wsUnwrapTurn_done_unmasked {u v : WsUnwrap} {alive : Bool}
    (h : wsUnwrapTurn u = .done (.ok (v, alive))) : v.unmasked = u.unmasked := by
  unfold wsUnwrapTurn at h
  split_ifs at h with hempty hzero
  · obtain ⟨rfl, -⟩ := Prod.mk.inj (Except.ok.inj (Turn.done.inj h))
    rfl
  · cases hparse : wsParseFrameHeader u.frames with
    | error a => simp [hparse] at h
    | ok p =>
      rw [hparse] at h
      dsimp only at h
      split_ifs at h
      · obtain ⟨rfl, -⟩ := Prod.mk.inj (Except.ok.inj (Turn.done.inj h))
        rfl
      · obtain ⟨rfl, -⟩ := Prod.mk.inj (Except.ok.inj (Turn.done.inj h))
        rfl
      · exact wsTakeTurn_done_unmasked (u := { u with frames := p.1 }) h
  · exact wsTakeTurn_done_unmasked h

/-- What a turn looks at for a header. -/
def WsUnwrap.front (u : WsUnwrap) : Option Bytes :=
  if u.frames.input.length = 0 ∨ u.frames.remaining ≠ 0 then none else some u.frames.input

/-- A turn is within a frame, or at a header. -/
theorem WsUnwrap.within_or (u : WsUnwrap) :
    u.frames.input.length = 0 ∨ u.frames.remaining ≠ 0 ∧ u.front = none ∨
      u.frames.input.length ≠ 0 ∧ u.frames.remaining = 0 ∧ u.front = some u.frames.input := by
  unfold WsUnwrap.front
  split_ifs with h
  · rcases h with hempty | hwithin
    · exact .inl hempty
    · exact .inr (.inl ⟨hwithin, rfl⟩)
  · rw [not_or, not_not] at h
    exact .inr (.inr ⟨h.1, h.2, rfl⟩)

theorem wsUnwrapTurn_again_front {u v : WsUnwrap} (h : wsUnwrapTurn u = .again v) :
    u.frames.remaining ≠ 0 ∧ u.front = none ∨
      ∃ head, u.front.bind headAdmitted = some head ∧ IsDataHead head := by
  unfold wsUnwrapTurn at h
  rcases u.within_or with hempty | hwithin | ⟨hin, hzero, hfront⟩
  · rw [if_pos hempty] at h
    simp at h
  · exact .inl hwithin
  · rw [if_neg hin, if_pos hzero] at h
    cases hparse : wsParseFrameHeader u.frames with
    | error a => simp [hparse] at h
    | ok p =>
      rw [hparse] at h
      dsimp only at h
      split_ifs at h with hneg hnone
      rw [hfront]
      exact .inr ((wsParseFrameHeader_front hzero hparse).1 (by omega))

theorem wsUnwrapTurn_done_front {u v : WsUnwrap} {alive : Bool}
    (h : wsUnwrapTurn u = .done (.ok (v, alive))) (hv : v.frames.remaining ≠ 0) :
    u.frames.remaining ≠ 0 ∧ u.front = none ∨
      ∃ head, u.front.bind headAdmitted = some head ∧ IsDataHead head := by
  unfold wsUnwrapTurn at h
  rcases u.within_or with hempty | hwithin | ⟨hin, hzero, hfront⟩
  · rw [if_pos hempty] at h
    obtain ⟨rfl, -⟩ := Prod.mk.inj (Except.ok.inj (Turn.done.inj h))
    exact .inl ⟨hv, if_pos (.inl hempty)⟩
  · exact .inl hwithin
  · rw [if_neg hin, if_pos hzero] at h
    cases hparse : wsParseFrameHeader u.frames with
    | error a => simp [hparse] at h
    | ok p =>
      obtain ⟨hdata, hnone⟩ := wsParseFrameHeader_front hzero hparse
      rw [hparse] at h
      dsimp only at h
      rw [hfront]
      split_ifs at h with hneg hret
      · obtain ⟨rfl, -⟩ := Prod.mk.inj (Except.ok.inj (Turn.done.inj h))
        exact absurd (hnone (by omega)) hv
      · obtain ⟨rfl, -⟩ := Prod.mk.inj (Except.ok.inj (Turn.done.inj h))
        exact absurd (hnone (by omega)) hv
      · exact .inr (hdata (by omega))

/-- The loop before there is a cipher. -/
def wsUnwrapFrames : FrameLoop WsUnwrap WsUnwrap.Exit where
  turn := wsUnwrapTurn
  size u := u.frames.input.length
  shrinks := wsUnwrapTurn_shrinks
  valid _ := True
  front := WsUnwrap.front
  within u := u.frames.remaining ≠ 0
  withinEnd r := ∃ u alive, r = .ok (u, alive) ∧ u.frames.remaining ≠ 0
  out := WsUnwrap.unmasked
  outEnd r := r.toOption.map fun p => p.1.unmasked
  valid_again _ _ := trivial
  again _ := wsUnwrapTurn_again_front
  done _ h := fun ⟨_, _, hr, hv⟩ => wsUnwrapTurn_done_front (hr ▸ h) hv
  grows _ := wsUnwrapTurn_again_unmasked
  rests {_ r _} _ h hb := by
    rcases r with a | ⟨v, alive⟩
    · simp [Except.toOption] at hb
    · rw [← Option.some.inj hb]
      exact wsUnwrapTurn_done_unmasked h

variable {W : Type*}

theorem decryptWsTurn_again_inp {c c' : Conn W} {T : AesCrypto}
    (h : decryptWsTurn c T = .again c') : c.inp <+: c'.inp := by
  unfold decryptWsTurn at h
  split_ifs at h with hzero
  · cases hparse : wsParseFrameHeader ⟨c.inU, 0, c.wsMask, c.wsMaskOffset⟩ with
    | error a => simp [hparse] at h
    | ok p =>
      rw [hparse] at h
      dsimp only at h
      split_ifs at h
      rw [← Turn.again.inj h]
      exact List.prefix_append _ _
  · rw [← Turn.again.inj h]
    exact List.prefix_append _ _

theorem decryptWsTurn_done_inp {c c' : Conn W} {T : AesCrypto} {r : ℤ}
    (h : decryptWsTurn c T = .done (.ok (c', r))) : c'.inp = c.inp := by
  unfold decryptWsTurn at h
  split_ifs at h with hzero
  cases hparse : wsParseFrameHeader ⟨c.inU, 0, c.wsMask, c.wsMaskOffset⟩ with
  | error a => simp [hparse] at h
  | ok p =>
    rw [hparse] at h
    dsimp only at h
    split_ifs at h
    · obtain ⟨rfl, -⟩ := Prod.mk.inj (Except.ok.inj (Turn.done.inj h))
      rfl
    · obtain ⟨rfl, -⟩ := Prod.mk.inj (Except.ok.inj (Turn.done.inj h))
      rfl

/-- **A turn of a WebSocket connection** with something to read is one over frames. -/
theorem decryptTurn_active {c : Conn W} (hactive : c.wsState = .active) :
    c.crypto = none ∧ decryptTurn c = .done (.error .crypto) ∨
      c.inU.length = 0 ∧ decryptTurn c = .done (.ok (c, 0)) ∨
      ∃ T, c.inU.length ≠ 0 ∧ decryptTurn c = decryptWsTurn c T := by
  unfold decryptTurn
  cases hcrypto : c.crypto with
  | none => exact .inl ⟨rfl, rfl⟩
  | some T =>
    dsimp only
    rw [if_pos hactive]
    split_ifs with hempty
    · exact .inr (.inl ⟨hempty, rfl⟩)
    · exact .inr (.inr ⟨T, hempty, rfl⟩)

/-- What a turn looks at for a header. -/
def Conn.frameFront (c : Conn W) : Option Bytes :=
  if c.inU.length = 0 ∨ c.wsFrameRemaining ≠ 0 then none else some c.inU

theorem decryptWsTurn_again_front {c c' : Conn W} {T : AesCrypto} (hin : c.inU.length ≠ 0)
    (h : decryptWsTurn c T = .again c') :
    c.wsFrameRemaining ≠ 0 ∧ c.frameFront = none ∨
      ∃ head, c.frameFront.bind headAdmitted = some head ∧ IsDataHead head := by
  unfold decryptWsTurn at h
  unfold Conn.frameFront
  split_ifs at h with hzero
  · cases hparse : wsParseFrameHeader ⟨c.inU, 0, c.wsMask, c.wsMaskOffset⟩ with
    | error a => simp [hparse] at h
    | ok p =>
      rw [hparse] at h
      dsimp only at h
      split_ifs at h with hneg hnone
      rw [if_neg (by simp [hin, hzero])]
      exact .inr ((wsParseFrameHeader_front rfl hparse).1 (by omega))
  · exact .inl ⟨hzero, if_pos (.inr hzero)⟩

/-- Such a turn ends the loop between two frames. -/
theorem decryptWsTurn_done_remaining {c c' : Conn W} {T : AesCrypto} {r : ℤ}
    (h : decryptWsTurn c T = .done (.ok (c', r))) : c'.wsFrameRemaining = 0 := by
  unfold decryptWsTurn at h
  split_ifs at h with hzero
  cases hparse : wsParseFrameHeader ⟨c.inU, 0, c.wsMask, c.wsMaskOffset⟩ with
  | error a => simp [hparse] at h
  | ok p =>
    have hnone := (wsParseFrameHeader_front rfl hparse).2
    rw [hparse] at h
    dsimp only at h
    split_ifs at h
    · obtain ⟨rfl, -⟩ := Prod.mk.inj (Except.ok.inj (Turn.done.inj h))
      exact hnone (by omega)
    · obtain ⟨rfl, -⟩ := Prod.mk.inj (Except.ok.inj (Turn.done.inj h))
      exact hnone (by omega)

/-- The loop with a cipher, of a WebSocket connection. -/
def decryptFrames : FrameLoop (Conn W) (DecryptExit W) where
  turn := decryptTurn
  size := decryptSize
  shrinks := decryptTurn_shrinks
  valid c := c.wsState = .active
  front := Conn.frameFront
  within c := c.wsFrameRemaining ≠ 0
  withinEnd r := ∃ c ret, r = .ok (c, ret) ∧ c.wsFrameRemaining ≠ 0
  out c := c.inp
  outEnd r := r.toOption.map fun p => p.1.inp
  valid_again {c c'} hvalid h := ((decryptTurn_ok c).1 c' h).1.wsState.trans hvalid
  again {c c'} hvalid h := by
    rcases decryptTurn_active hvalid with ⟨-, hturn⟩ | ⟨-, hturn⟩ | ⟨T, hin, hturn⟩
    · simp [hturn] at h
    · simp [hturn] at h
    · exact decryptWsTurn_again_front hin (hturn.symm.trans h)
  done {c r} hvalid h := by
    rintro ⟨c', ret, rfl, hc'⟩
    rcases decryptTurn_active hvalid with ⟨-, hturn⟩ | ⟨hempty, hturn⟩ | ⟨T, -, hturn⟩
    · simp [hturn] at h
    · obtain ⟨rfl, -⟩ := Prod.mk.inj (Except.ok.inj (Turn.done.inj (hturn.symm.trans h)))
      exact .inl ⟨hc', if_pos (.inl hempty)⟩
    · exact absurd (decryptWsTurn_done_remaining (hturn.symm.trans h)) hc'
  grows {c c'} hvalid h := by
    rcases decryptTurn_active hvalid with ⟨-, hturn⟩ | ⟨-, hturn⟩ | ⟨T, -, hturn⟩
    · simp [hturn] at h
    · simp [hturn] at h
    · exact decryptWsTurn_again_inp (hturn.symm.trans h)
  rests {c r b} hvalid h hb := by
    rcases r with a | ⟨c', ret⟩
    · simp [Except.toOption] at hb
    · obtain rfl := Option.some.inj hb
      rcases decryptTurn_active hvalid with ⟨-, hturn⟩ | ⟨-, hturn⟩ | ⟨T, -, hturn⟩
      · simp [hturn] at h
      · obtain ⟨rfl, -⟩ := Prod.mk.inj (Except.ok.inj (Turn.done.inj (hturn.symm.trans h)))
        rfl
      · exact decryptWsTurn_done_inp (hturn.symm.trans h)

/-! ### A connection -/

/-- A connection with its record, and the assertion that has failed, if any. -/
structure Receiver (W : Type*) where
  conn : Conn W
  log : FrameLog
  fault : Option Abort

/-- The unwrapping before there is a cipher, the decryption, or anything else that happens to the
connection, bytes that arrive included. -/
inductive ReceiverEvent (W : Type*)
  | unwrap
  | decrypt
  | other (d : Conn W)

/-- The two loops apart, nothing touches the WebSocket state, the frame at hand and its mask. -/
def Conn.keepFrames (c d : Conn W) : Conn W :=
  { d with
    wsState := c.wsState
    wsFrameRemaining := c.wsFrameRemaining
    wsMask := c.wsMask
    wsMaskOffset := c.wsMaskOffset }

/-- A connection that has read nothing yet. -/
def Receiver.start (c : Conn W) : Receiver W := ⟨c, ⟨none, [], []⟩, none⟩

/-- Behind the unwrapping. -/
def Receiver.unwrapped (x : Receiver W) : Receiver W :=
  let log := (wsUnwrapFrames.logged (x.conn.unwrapping []) x.log).2
  match wsPreCrypto x.conn with
  | .ok c => ⟨c, log, none⟩
  | .error (.ret c _) => ⟨c, log, none⟩
  | .error (.abort a) => ⟨x.conn, log, some a⟩

/-- Behind the decryption. -/
def Receiver.decrypted (x : Receiver W) : Receiver W :=
  let log := (decryptFrames.logged x.conn x.log).2
  match cpuTcpAesCryptoCtr128DecryptInput x.conn with
  | .ok (c, _) => ⟨c, log, none⟩
  | .error a => ⟨x.conn, log, some a⟩

/-- One event.  The unwrapping is for a connection without a cipher, the decryption for one with
it. -/
def receiverStep (x : Receiver W) (e : ReceiverEvent W) : Receiver W :=
  if x.fault.isSome then x
  else
    match e with
    | .unwrap => if x.conn.wsState = .active ∧ x.conn.crypto.isNone then x.unwrapped else x
    | .decrypt => if x.conn.wsState = .active ∧ x.conn.crypto.isSome then x.decrypted else x
    | .other d => { x with conn := x.conn.keepFrames d }

/-- **The condition**: of the headers that the loop of a step comes to, each that is all there, is
no CLOSE and announces less than 2 GiB is one that a client has to send. -/
def HeadsConform (x : Receiver W) (e : ReceiverEvent W) : Prop :=
  x.fault = none → x.conn.wsState = .active →
    match e with
    | .unwrap => x.conn.crypto.isNone →
      EachTurn wsUnwrapTurn (fun u => FrameLog.FrontConforms u.front) (x.conn.unwrapping [])
    | .decrypt => x.conn.crypto.isSome →
      EachTurn decryptTurn (fun c => FrameLog.FrontConforms c.frameFront) x.conn
    | .other _ => True

/-- What holds between two steps: within a frame, the record of a server that has conformed is in
a conforming frame with data. -/
structure Receiver.Inv (x : Receiver W) : Prop where
  active : x.conn.wsState = .active
  reading : x.fault = none → x.log.Conforming → x.conn.wsFrameRemaining ≠ 0 → x.log.InPayload

theorem Receiver.unwrapped_log (x : Receiver W) :
    x.unwrapped.log = (wsUnwrapFrames.logged (x.conn.unwrapping []) x.log).2 := by
  unfold Receiver.unwrapped
  rcases wsPreCrypto x.conn with (⟨c, res⟩ | a) | c
  · rfl
  · rfl
  · rfl

theorem Receiver.decrypted_log (x : Receiver W) :
    x.decrypted.log = (decryptFrames.logged x.conn x.log).2 := by
  unfold Receiver.decrypted
  rcases cpuTcpAesCryptoCtr128DecryptInput x.conn with a | ⟨c, r⟩
  · rfl
  · rfl

/-- The unwrapping leaves the place in the frame that its loop ends in. -/
theorem Receiver.unwrapped_conn (x : Receiver W) :
    x.unwrapped.conn.wsState = x.conn.wsState ∧
      (x.unwrapped.fault = none → x.unwrapped.conn.wsFrameRemaining ≠ 0 →
        wsUnwrapFrames.withinEnd (wsUnwrapFrames.logged (x.conn.unwrapping []) x.log).1) := by
  have hloop : (wsUnwrapFrames.logged (x.conn.unwrapping []) x.log).1 =
      wsUnwrapLoop (x.conn.unwrapping []) := wsUnwrapFrames.logged_fst _ _
  rw [hloop]
  unfold Receiver.unwrapped wsPreCrypto
  cases hexit : wsUnwrapLoop (x.conn.unwrapping []) with
  | error a =>
    have hexit' := hexit
    unfold Conn.unwrapping at hexit'
    rw [hexit']
    exact ⟨rfl, fun hfault => absurd hfault (by simp)⟩
  | ok p =>
    obtain ⟨u, alive⟩ := p
    have hexit' := hexit
    unfold Conn.unwrapping at hexit'
    rw [hexit']
    cases alive with
    | true => exact ⟨rfl, fun _ hzero => ⟨u, true, rfl, hzero⟩⟩
    | false => exact ⟨rfl, fun _ hzero => ⟨u, false, rfl, hzero⟩⟩

/-- So does the decryption. -/
theorem Receiver.decrypted_conn (x : Receiver W) :
    x.decrypted.conn.wsState = x.conn.wsState ∧
      (x.decrypted.fault = none → x.decrypted.conn.wsFrameRemaining ≠ 0 →
        decryptFrames.withinEnd (decryptFrames.logged x.conn x.log).1) := by
  have hloop : (decryptFrames.logged x.conn x.log).1 =
      cpuTcpAesCryptoCtr128DecryptInput x.conn := decryptFrames.logged_fst _ _
  rw [hloop]
  unfold Receiver.decrypted
  cases hexit : cpuTcpAesCryptoCtr128DecryptInput x.conn with
  | error a => exact ⟨rfl, fun hfault => absurd hfault (by simp)⟩
  | ok p =>
    obtain ⟨c, r⟩ := p
    exact ⟨(cpuTcpAesCryptoCtr128DecryptInput_frame hexit).wsState,
      fun _ hzero => ⟨c, r, rfl, hzero⟩⟩

/-- What the unwrapping puts in front of the rest of the frames is on the record. -/
theorem Receiver.unwrapped_payload (x : Receiver W) {c : Conn W}
    (h : wsPreCrypto x.conn = .ok c) :
    ∃ u, c = x.conn.unwrapped u ∧
      x.unwrapped.log.payload = x.log.payload ++ u.unmasked := by
  obtain ⟨u, hloop, hc⟩ := wsPreCrypto_unwrapped h
  have hexit : wsUnwrapFrames.outEnd (wsUnwrapFrames.logged (x.conn.unwrapping []) x.log).1 =
      some u.unmasked := by
    rw [wsUnwrapFrames.logged_fst]
    exact congrArg wsUnwrapFrames.outEnd hloop
  obtain ⟨more, hmore, hlog⟩ := wsUnwrapFrames.logged_payload trivial hexit
  refine ⟨u, hc, ?_⟩
  rw [x.unwrapped_log, hlog, hmore]
  rfl

/-- What the decryption appends to `in` is on the record. -/
theorem Receiver.decrypted_payload {x : Receiver W} (hactive : x.conn.wsState = .active)
    {c : Conn W} {r : ℤ} (h : cpuTcpAesCryptoCtr128DecryptInput x.conn = .ok (c, r)) :
    ∃ more, c.inp = x.conn.inp ++ more ∧ x.decrypted.log.payload = x.log.payload ++ more := by
  have hexit : decryptFrames.outEnd (decryptFrames.logged x.conn x.log).1 = some c.inp := by
    rw [decryptFrames.logged_fst]
    exact congrArg decryptFrames.outEnd h
  rw [x.decrypted_log]
  exact decryptFrames.logged_payload hactive hexit

theorem Receiver.Inv.unwrapped {x : Receiver W} (h : x.Inv) (hfault : x.fault = none) :
    x.unwrapped.Inv := by
  obtain ⟨hstate, hend⟩ := x.unwrapped_conn
  refine ⟨hstate.trans h.active, fun hfault' hgood hzero => ?_⟩
  rw [x.unwrapped_log] at hgood ⊢
  exact wsUnwrapFrames.logged_inPayload trivial (h.reading hfault) hgood (hend hfault' hzero)

theorem Receiver.Inv.decrypted {x : Receiver W} (h : x.Inv) (hfault : x.fault = none) :
    x.decrypted.Inv := by
  obtain ⟨hstate, hend⟩ := x.decrypted_conn
  refine ⟨hstate.trans h.active, fun hfault' hgood hzero => ?_⟩
  rw [x.decrypted_log] at hgood ⊢
  exact decryptFrames.logged_inPayload h.active (h.reading hfault) hgood (hend hfault' hzero)

/-- **Every step keeps it.** -/
theorem Receiver.Inv.step {x : Receiver W} (h : x.Inv) (e : ReceiverEvent W) :
    (receiverStep x e).Inv := by
  unfold receiverStep
  rcases x.fault.isSome.eq_false_or_eq_true with hfault | hfault
  · rw [if_pos hfault]
    exact h
  · have hnone : x.fault = none := by simpa using hfault
    rw [if_neg (by simp [hnone])]
    cases e with
    | unwrap =>
      dsimp only
      split_ifs
      · exact h.unwrapped hnone
      · exact h
    | decrypt =>
      dsimp only
      split_ifs
      · exact h.decrypted hnone
      · exact h
    | other d => exact ⟨h.active, h.reading⟩

/-- **One step**: a server that has conformed goes on to exactly where the headers conform. -/
theorem receiverStep_conforming_iff {x : Receiver W} (h : x.Inv) (hgood : x.log.Conforming)
    (e : ReceiverEvent W) : (receiverStep x e).log.Conforming ↔ HeadsConform x e := by
  unfold receiverStep HeadsConform
  by_cases hfault : x.fault = none
  · have hreading := h.reading hfault hgood
    rw [if_neg (by simp [hfault])]
    cases e with
    | unwrap =>
      dsimp only
      cases hcrypto : x.conn.crypto.isNone with
      | true =>
        rw [if_pos ⟨h.active, rfl⟩, x.unwrapped_log]
        have hloop := wsUnwrapFrames.logged_conforming_iff (s := x.conn.unwrapping [])
          ⟨trivial, hgood, hreading⟩
        exact hloop.trans ⟨fun hturns _ _ _ => hturns, fun hturns => hturns hfault h.active rfl⟩
      | false =>
        rw [if_neg (by simp)]
        exact ⟨fun _ _ _ hnone => absurd hnone (by simp), fun _ => hgood⟩
    | decrypt =>
      dsimp only
      cases hcrypto : x.conn.crypto.isSome with
      | true =>
        rw [if_pos ⟨h.active, rfl⟩, x.decrypted_log]
        have hloop := decryptFrames.logged_conforming_iff (s := x.conn)
          ⟨h.active, hgood, hreading⟩
        exact hloop.trans ⟨fun hturns _ _ _ => hturns, fun hturns => hturns hfault h.active rfl⟩
      | false =>
        rw [if_neg (by simp)]
        exact ⟨fun _ _ _ hsome => absurd hsome (by simp), fun _ => hgood⟩
    | other d => exact ⟨fun _ _ _ => trivial, fun _ => hgood⟩
  · rw [if_pos (by simp [Option.isSome_iff_ne_none, hfault])]
    exact ⟨fun _ hnone => absurd hnone hfault, fun _ => hgood⟩

/-- **main statement**: whatever is done to a WebSocket connection, and in whatever order, all the
payload in `in` is that of conforming frames and any other frame closes the connection, exactly
where the headers themselves see to it.  The parser does not: it looks at neither RSV nor the
opcodes without a meaning, and takes an unmasked payload with the mask of an earlier frame. -/
theorem receiverRun_conforming_iff (c : Conn W) (hactive : c.wsState = .active)
    (hbetween : c.wsFrameRemaining = 0) (es : List (ReceiverEvent W)) :
    Throughout receiverStep (fun x => x.log.Conforming) (Receiver.start c) es ↔
      Along receiverStep HeadsConform (Receiver.start c) es := by
  refine throughout_iff_along (I := Receiver.Inv) (R := fun _ _ => True)
    (fun x e h _ => h.step e) (fun x e h _ hgood => receiverStep_conforming_iff h hgood e)
    ⟨hactive, fun _ _ hzero => absurd hbetween hzero⟩ ⟨by simp [Receiver.start], ?_⟩ ?_
  · simp [Receiver.start]
  · exact along_of_throughout (Q := fun _ => True) (fun _ _ _ => trivial)
      (throughout_of_step (fun _ _ _ => trivial) trivial)

/-- A masked frame, and an unmasked one with a text. -/
def maskedFrame : Bytes := [0x82, 0x82, 1, 2, 3, 4, 6, 10]

def unmaskedText : Bytes := [0x81, 0x02, 0x68, 0x69]

/-- The masked frame is taken as it is to be. -/
theorem receiverRun_conforming_masked :
    Throughout receiverStep (fun x => x.log.Conforming) (Receiver.start sampleUnwrapping)
      [.other { sampleUnwrapping with inp := maskedFrame }, .unwrap] := by
  refine (receiverRun_conforming_iff sampleUnwrapping rfl rfl _).mpr
    ⟨fun _ _ => trivial, fun _ _ _ => ?_, trivial⟩
  have hagain : wsUnwrapTurn ⟨⟨maskedFrame, 0, sampleUnwrapping.wsMask, 0⟩, []⟩ =
      .again ⟨⟨[], 0, [1, 2, 3, 4], 2⟩, [7, 8]⟩ := rfl
  refine .again (fun h hh => ?_) hagain (.done (fun h hh => ?_) rfl)
  · rw [← Option.some.inj hh]
    exact ⟨by decide, by decide, by decide⟩
  · simp [WsUnwrap.front] at hh

/-- The header of the other one. -/
def textHead : WsHead := ⟨0x81, false, .seven 2 (Nat.le_of_ble_eq_true rfl)⟩

/-- The connection once the frame has arrived. -/
def sampleText : Conn Unit := { sampleUnwrapping with inp := unmaskedText }

/-- The text of the unmasked frame is delivered. -/
theorem unmaskedText_delivered :
    (finish receiverStep (Receiver.start sampleUnwrapping) [.other sampleText, .unwrap]).log =
      ⟨some textHead, [textHead], [(some textHead, [0x68, 0x69])]⟩ := by
  have hagain : wsUnwrapFrames.logTurn (sampleText.unwrapping [], ⟨none, [], []⟩) =
      .again (⟨⟨[], 0, sampleText.wsMask, 2⟩, [0x68, 0x69]⟩,
        ⟨some textHead, [textHead], [(some textHead, [0x68, 0x69])]⟩) := rfl
  have hdone : wsUnwrapFrames.logTurn (⟨⟨[], 0, sampleText.wsMask, 2⟩, [0x68, 0x69]⟩,
      ⟨some textHead, [textHead], [(some textHead, [0x68, 0x69])]⟩) =
      .done (.ok (⟨⟨[], 0, sampleText.wsMask, 2⟩, [0x68, 0x69]⟩, true),
        ⟨some textHead, [textHead], [(some textHead, [0x68, 0x69])]⟩) := rfl
  have hlogged : (wsUnwrapFrames.logged (sampleText.unwrapping []) ⟨none, [], []⟩).2 =
      ⟨some textHead, [textHead], [(some textHead, [0x68, 0x69])]⟩ := by
    unfold FrameLoop.logged
    rw [loop_of_again _ hagain, loop_of_done _ hdone]
  exact (Receiver.unwrapped_log ⟨sampleText, ⟨none, [], []⟩, none⟩).trans hlogged

/-- So the payload is not only that of conforming frames. -/
theorem receiverRun_not_conforming :
    ¬ ∀ (c : Conn Unit) (es : List (ReceiverEvent Unit)), c.wsState = .active →
      c.wsFrameRemaining = 0 →
      Throughout receiverStep (fun x => x.log.Conforming) (Receiver.start c) es := by
  intro h
  have hgood := (h sampleUnwrapping [.other sampleText, .unwrap] rfl rfl).finish
  rw [unmaskedText_delivered] at hgood
  exact absurd (hgood.admitted textHead (List.mem_singleton_self _)).masked (by decide)

end Server
end Teleproto3
