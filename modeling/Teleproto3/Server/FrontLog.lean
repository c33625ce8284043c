/-
# Who asked, and who was answered

The log of the front end names for each query the client, the entry it was forwarded under and the
id in the packet, and for each answer the client it went to and the id it came for.  `Separate` says
that they belong together.

A log is `LogSound` against the ledger when, besides, all queries under the id of a live entry are
of the client that the entry joins, and no query was forwarded under an id that is still to be
issued.  That is what the next record needs.
-/

import Teleproto3.Server.ExtQueries

namespace Teleproto3
namespace Server

/-- The client of a query, and the id it was forwarded under. -/
def FrontRecord.asks : FrontRecord → Option (ConnectionJob × UInt64)
  | .query c _ _ req => some (c, req.outConnId)
  | _ => none

/-- The client that an answer or an acknowledgement went to, and the id it came for. -/
def FrontRecord.answers : FrontRecord → Option (ConnectionJob × UInt64)
  | .answer d outConnId _ => some (d, outConnId)
  | .confirmation d outConnId _ => some (d, outConnId)
  | _ => none

/-- **Answers reach only the client that asked.**  A query is forwarded under an entry with the
`fd` and the generation of its client; an answer goes to a client that has asked under its id, and
nobody else has. -/
structure Separate (log : List FrontRecord) : Prop where
  forwarded : ∀ c d ex req, .query c d ex req ∈ log →
    ex.inFd = c.fd ∧ ex.inGen = c.generation ∧ req.outConnId = ex.outConnId
  asked : ∀ r ∈ log, ∀ d id, r.answers = some (d, id) → ∃ r' ∈ log, ∃ c,
    r'.asks = some (c, id) ∧ c.fd = d.fd ∧ c.generation = d.generation
  sole : ∀ r ∈ log, ∀ d id, r.answers = some (d, id) → ∀ r' ∈ log, ∀ c,
    r'.asks = some (c, id) → c.fd = d.fd ∧ c.generation = d.generation

/-- A query is forwarded under an entry of another generation. -/
def FrontRecord.misdirected : FrontRecord → Bool
  | .query c _ ex _ => ex.inGen ≠ c.generation
  | _ => false

theorem Separate.not_misdirected {log : List FrontRecord} (h : Separate log) {r : FrontRecord}
    (hr : r ∈ log) : r.misdirected = false := by
  cases r with
  | query c d ex req => simp [FrontRecord.misdirected, (h.forwarded c d ex req hr).2.1]
  | _ => rfl

/-- The log against the ledger. -/
structure LogSound (log : List FrontRecord) (L : ExtLedger) : Prop where
  separate : Separate log
  own : ∀ x ∈ L.live, ∀ r ∈ log, ∀ c, r.asks = some (c, x.2.outConnId) →
    c.fd = x.2.inFd ∧ c.generation = x.2.inGen
  issued : ∀ r ∈ log, ∀ c id, r.asks = some (c, id) → id.toNat ≤ (L.issued (slotOf id)).toNat

/-- Every entry has forwarded a query. -/
def Asked (log : List FrontRecord) (L : ExtLedger) : Prop :=
  ∀ x ∈ L.live, ∃ r ∈ log, ∃ c, r.asks = some (c, x.2.outConnId)

variable {log : List FrontRecord} {L L' : ExtLedger} {a : ℕ} {e : ExtEntry} {r : FrontRecord}
  {c d : ConnectionJob} {id : UInt64}

/-! ### The log grows -/

/-- What asks in a log is in the part where something asks. -/
theorem mem_of_asks {rs : List FrontRecord} (hasks : ∀ r ∈ rs, r.asks = none)
    (hr : r ∈ log ++ rs) (h : r.asks = some (c, id)) : r ∈ log := by
  rcases List.mem_append.mp hr with hr | hr
  · exact hr
  · rw [hasks r hr] at h
    cases h

/-- What answers in a log is in the part where something answers. -/
theorem mem_of_answers {rs : List FrontRecord} (hanswers : ∀ r ∈ rs, r.answers = none)
    (hr : r ∈ log ++ rs) (h : r.answers = some (d, id)) : r ∈ log := by
  rcases List.mem_append.mp hr with hr | hr
  · exact hr
  · rw [hanswers r hr] at h
    cases h

theorem Asked.append (h : Asked log L) (rs : List FrontRecord) : Asked (log ++ rs) L := by
  intro x hx
  obtain ⟨r, hr, hask⟩ := h x hx
  exact ⟨r, List.mem_append_left rs hr, hask⟩

theorem Asked.within (h : Asked log L) (hw : L'.Within L) : Asked log L' := by
  intro x' hx'
  obtain ⟨x, hx, -, -, -, -, hid⟩ := hw.live x' hx'
  rw [hid]
  exact h x hx

namespace LogSound

theorem start : LogSound [] .start where
  separate := ⟨by simp, by simp, by simp⟩
  own := by simp
  issued := by simp

/-- Entries may go. -/
theorem within (h : LogSound log L) (hw : L'.Within L) : LogSound log L' where
  separate := h.separate
  own x' hx' r hr c hask := by
    obtain ⟨x, hx, -, hfd, hgen, -, hid⟩ := hw.live x' hx'
    rw [hid] at hask
    rw [hfd, hgen]
    exact h.own x hx r hr c hask
  issued := hw.issued.symm ▸ h.issued

/-- **A new entry may come**: nobody has asked under its id. -/
theorem create (h : LogSound log L) (hf : L.Fits a e) : LogSound log (L.create a e) where
  separate := h.separate
  own x hx r hr c hask := by
    rcases List.mem_append.mp hx with hx | hx
    · exact h.own x hx r hr c hask
    · rw [List.mem_singleton.mp hx] at hask
      exact absurd (h.issued r hr c _ hask) (Nat.not_le_of_lt hf.later)
  issued r hr c id hask := by
    by_cases hs : slotOf id = slotOf e.outConnId
    · have hle := h.issued r hr c id hask
      rw [hs] at hle ⊢
      rw [ExtLedger.issued_create_self]
      exact hle.trans hf.later.le
    · rw [ExtLedger.issued_create_of_ne hs]
      exact h.issued r hr c id hask

/-- What is neither a query nor an answer may be recorded. -/
theorem silent (h : LogSound log L) {rs : List FrontRecord}
    (hasks : ∀ r ∈ rs, r.asks = none) (hanswers : ∀ r ∈ rs, r.answers = none) :
    LogSound (log ++ rs) L := by
  refine ⟨⟨fun c d ex req hr => ?_, fun r hr d id hd => ?_, fun r hr d id hd r' hr' c hc => ?_⟩,
    fun x hx r hr c hc => ?_, fun r hr c id hc => ?_⟩
  · exact h.separate.forwarded c d ex req (mem_of_asks hasks hr rfl)
  · obtain ⟨r', hr', hc⟩ := h.separate.asked r (mem_of_answers hanswers hr hd) d id hd
    exact ⟨r', List.mem_append_left rs hr', hc⟩
  · exact h.separate.sole r (mem_of_answers hanswers hr hd) d id hd r' (mem_of_asks hasks hr' hc)
      c hc
  · exact h.own x hx r (mem_of_asks hasks hr hc) c hc
  · exact h.issued r (mem_of_asks hasks hr hc) c id hc

/-- **An answer for a live entry** goes to the client that the entry joins. -/
theorem answer (h : LogSound log L) (hlive : Asked log L) (hx : (a, e) ∈ L.live)
    (hfd : d.fd = e.inFd) (hgen : d.generation = e.inGen) (hasks : r.asks = none)
    (hanswers : r.answers = some (d, e.outConnId)) : LogSound (log ++ [r]) L := by
  have hnone : ∀ r' ∈ [r], r'.asks = none := fun r' hr' => List.mem_singleton.mp hr' ▸ hasks
  refine ⟨⟨fun c d ex req hr => ?_, fun r' hr d' id hd => ?_, fun r' hr d' id hd r'' hr' c hc => ?_⟩,
    fun x hx r' hr c hc => ?_, fun r' hr c id hc => ?_⟩
  · exact h.separate.forwarded c d ex req (mem_of_asks hnone hr rfl)
  · rcases List.mem_append.mp hr with hr | hr
    · obtain ⟨r'', hr', hc⟩ := h.separate.asked r' hr d' id hd
      exact ⟨r'', List.mem_append_left [r] hr', hc⟩
    · rw [List.mem_singleton.mp hr, hanswers] at hd
      obtain ⟨rfl, rfl⟩ := Prod.mk.inj (Option.some.inj hd)
      obtain ⟨r'', hr', c, hc⟩ := hlive _ hx
      obtain ⟨hcfd, hcgen⟩ := h.own _ hx r'' hr' c hc
      exact ⟨r'', List.mem_append_left [r] hr', c, hc, hcfd.trans hfd.symm, hcgen.trans hgen.symm⟩
  · have hr' := mem_of_asks hnone hr' hc
    rcases List.mem_append.mp hr with hr | hr
    · exact h.separate.sole r' hr d' id hd r'' hr' c hc
    · rw [List.mem_singleton.mp hr, hanswers] at hd
      obtain ⟨rfl, rfl⟩ := Prod.mk.inj (Option.some.inj hd)
      obtain ⟨hcfd, hcgen⟩ := h.own _ hx r'' hr' c hc
      exact ⟨hcfd.trans hfd.symm, hcgen.trans hgen.symm⟩
  · exact h.own x hx r' (mem_of_asks hnone hr hc) c hc
  · exact h.issued r' (mem_of_asks hnone hr hc) c id hc

/-- **A query under a live entry** that joins its client. -/
theorem query (h : LogSound log L) (hL : L.Sound) (hx : (a, e) ∈ L.live) (hfd : e.inFd = c.fd)
    (hgen : e.inGen = c.generation) {ex : ExtConnection} (hex : ex.unlinked = e.connection)
    {req : ProxyReq} (hreq : req.outConnId = ex.outConnId) :
    LogSound (log ++ [.query c d ex req]) L := by
  have hid : ex.outConnId = e.outConnId := congrArg ExtConnection.outConnId hex
  have hnone : ∀ r ∈ [FrontRecord.query c d ex req], r.answers = none := fun r hr =>
    List.mem_singleton.mp hr ▸ rfl
  have hlast {r : FrontRecord} {c' : ConnectionJob} {id : UInt64}
      (hr : r ∈ log ++ [FrontRecord.query c d ex req]) (hask : r.asks = some (c', id)) : r ∈ log ∨ c' = c ∧ id = e.outConnId := by
    rcases List.mem_append.mp hr with hr | hr
    · exact .inl hr
    · rw [List.mem_singleton.mp hr] at hask
      obtain ⟨rfl, rfl⟩ := Prod.mk.inj (Option.some.inj hask)
      exact .inr ⟨rfl, hreq.trans hid⟩
  refine ⟨⟨fun c' d' ex' req' hr => ?_, fun r hr d' id hd => ?_,
      fun r hr d' id hd r' hr' c' hc => ?_⟩, fun x hx' r hr c' hc => ?_, fun r hr c' id hc => ?_⟩
  · rcases List.mem_append.mp hr with hr | hr
    · exact h.separate.forwarded c' d' ex' req' hr
    · obtain ⟨rfl, rfl, rfl, rfl⟩ := FrontRecord.query.inj (List.mem_singleton.mp hr)
      exact ⟨(congrArg ExtConnection.inFd hex).trans hfd,
        (congrArg ExtConnection.inGen hex).trans hgen, hreq⟩
  · obtain ⟨r', hr', hc⟩ := h.separate.asked r (mem_of_answers hnone hr hd) d' id hd
    exact ⟨r', List.mem_append_left _ hr', hc⟩
  · have hold := mem_of_answers hnone hr hd
    rcases hlast hr' hc with hr' | ⟨rfl, rfl⟩
    · exact h.separate.sole r hold d' id hd r' hr' c' hc
    · -- The answer went to whom the entry joins, and that is who asks.
      obtain ⟨r₁, hr₁, c₁, hc₁, hfd₁, hgen₁⟩ := h.separate.asked r hold d' _ hd
      obtain ⟨hfd₂, hgen₂⟩ := h.own _ hx r₁ hr₁ c₁ hc₁
      exact ⟨hfd.symm.trans (hfd₂.symm.trans hfd₁), hgen.symm.trans (hgen₂.symm.trans hgen₁)⟩
  · rcases hlast hr hc with hr | ⟨rfl, hsame⟩
    · exact h.own x hx' r hr c' hc
    · rw [hL.of_outConnId hx' hx hsame]
      exact ⟨hfd.symm, hgen.symm⟩
  · rcases hlast hr hc with hr | ⟨rfl, rfl⟩
    · exact h.issued r hr c' id hc
    · exact (congrArg UInt64.toNat (hL.current _ hx).1).ge

end LogSound

end Server
end Teleproto3
