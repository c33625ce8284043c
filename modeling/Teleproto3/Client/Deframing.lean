/-
# Frames off the stream

What the first loop of `process_incoming` does to a stream of transport frames,
whatever the payloads are about.  `DeframingAt` is the invariant: how far the frames
have been taken off, the cipher standing behind their payloads, and the payloads,
decrypted, in `reasm_in` behind those bytes that have been cut out of it.

The two things that move it on are a frame skipped, which is `DeframingAt.skip`, and a
payload moved, which is `DeframingAt.move`.
-/

import Teleproto3.Client.Receive

namespace Teleproto3
namespace Client

open Lib Wire

/-- How far the first loop has come with `frames`, all of one mode: `done` and `rest` are
those taken off the stream and those still to come, `cut` the decrypted bytes that are no
longer in `reasm_in`. -/
structure DeframingAt (mode : T3cMode) (frames : List ServerFrame) (ks : Keystream)
    (received : Bytes) (s : ClientStream) (moved : ℕ) (done rest : List ServerFrame)
    (cut : Bytes) : Prop where
  ready : s.state = .ready
  mode_eq : s.mode = mode
  frames_mode : ∀ f ∈ frames, f.mode = mode
  ctx : s.decryptCtx = some ⟨ks, moved⟩
  frames_eq : frames = done ++ rest
  received_eq : received = done.flatMap ServerFrame.encode ++ ringContents s.inRing
  received_prefix : received <+: frames.flatMap ServerFrame.encode
  moved_eq : moved = (done.flatMap ServerFrame.payload).length
  reasm_eq : cut ++ ringContents s.reasmIn = xorAt ks 0 (done.flatMap ServerFrame.payload)
  in_tail : s.inRing.tail ≤ s.inRing.cap
  reasm_tail : s.reasmIn.tail ≤ s.reasmIn.cap

namespace DeframingAt

variable {mode : T3cMode} {frames : List ServerFrame} {ks : Keystream} {received : Bytes}
  {s : ClientStream} {moved : ℕ} {done rest : List ServerFrame} {cut : Bytes}

/-- What is in `in_ring` is a prefix of the frames still to come. -/
theorem in_prefix (h : DeframingAt mode frames ks received s moved done rest cut) :
    ringContents s.inRing <+: rest.flatMap ServerFrame.encode := by
  have hp := h.received_prefix
  rw [h.frames_eq, List.flatMap_append, h.received_eq] at hp
  exact (List.prefix_append_right_inj _).mp hp

theorem in_length_le : (ringContents s.inRing).length ≤ RING_CAP := by
  rw [ringContents_length, ← s.inRing_cap]
  exact ringUsed_le_cap _

/-- **The frame at the front of `in_ring`**: it is the next one of the stream, and it is
either read or waited for. -/
theorem front (h : DeframingAt mode frames ks received s moved done rest cut)
    (hne : ringUsed s.inRing ≠ 0) :
    ∃ f rest', rest = f :: rest' ∧
      ((readFrame s.mode (ringContents s.inRing) = .needMore ∨
          readFrame s.mode (ringContents s.inRing) = .error) ∨
        (readFrame s.mode (ringContents s.inRing) = f.reading ∧
          f.encode.length ≤ RING_CAP ∧
          received = (done ++ [f]).flatMap ServerFrame.encode ++
            (ringContents s.inRing).drop f.encode.length)) := by
  have hp := h.in_prefix
  have hlen : (ringContents s.inRing).length ≤ RING_CAP := in_length_le
  cases rest with
  | nil =>
    rw [List.flatMap_nil] at hp
    rw [← ringContents_length, List.prefix_nil.mp hp] at hne
    exact absurd rfl hne
  | cons f rest' =>
    have hmode : f.mode = s.mode := by
      rw [h.mode_eq]
      exact h.frames_mode f (by rw [h.frames_eq]; simp)
    refine ⟨f, rest', rfl, ?_⟩
    rw [List.flatMap_cons] at hp
    rcases prefix_append_cases hp with ⟨hpart, hlt⟩ | ⟨q, hq, -⟩
    · left
      rw [← hmode]
      exact readFrame_incomplete f _ hpart hlt
    · right
      have hflen : f.encode.length ≤ RING_CAP := by
        rw [hq, List.length_append] at hlen
        omega
      refine ⟨?_, hflen, ?_⟩
      · rw [← hmode, hq]
        exact readFrame_encode f q (by simp only [RING_CAP] at hflen; omega)
      · rw [h.received_eq, hq, List.drop_left, flatMap_concat, List.append_assoc]

/-- A frame without payload has been skipped. -/
theorem skip {f : ServerFrame} {rest' : List ServerFrame}
    (h : DeframingAt mode frames ks received s moved done (f :: rest') cut)
    (hpay : f.payload = [])
    (hrec : received = (done ++ [f]).flatMap ServerFrame.encode ++
      (ringContents s.inRing).drop f.encode.length) :
    DeframingAt mode frames ks received (consumeIn s f.encode.length) moved (done ++ [f]) rest'
      cut where
  ready := h.ready
  mode_eq := h.mode_eq
  frames_mode := h.frames_mode
  ctx := h.ctx
  frames_eq := by rw [h.frames_eq, List.append_assoc, List.singleton_append]
  received_eq := by
    rw [hrec]
    simp only [consumeIn, ringContents_ringConsume]
  received_prefix := h.received_prefix
  moved_eq := by
    rw [flatMap_concat, hpay, List.append_nil]
    exact h.moved_eq
  reasm_eq := by
    rw [flatMap_concat, hpay, List.append_nil]
    exact h.reasm_eq
  in_tail := by
    simp only [consumeIn, ringConsume_cap]
    exact (ringConsume_tail_le _ _).trans h.in_tail
  reasm_tail := h.reasm_tail

/-- A frame's payload has been decrypted and moved into `reasm_in`. -/
theorem move {f : ServerFrame} {rest' : List ServerFrame}
    (h : DeframingAt mode frames ks received s moved done (f :: rest') cut)
    (hrec : received = (done ++ [f]).flatMap ServerFrame.encode ++
      (ringContents s.inRing).drop f.encode.length)
    (hfit : s.reasmIn.tail + f.payload.length ≤ s.reasmIn.cap) :
    DeframingAt mode frames ks received
      (consumeIn
        (appendReasm { s with decryptCtx := some ⟨ks, moved + f.payload.length⟩ }
          (xorAt ks moved f.payload)).1 f.encode.length)
      (moved + f.payload.length) (done ++ [f]) rest' cut := by
  obtain ⟨-, hcontents, htail⟩ := ringAppend_of_fits s.reasmIn (xorAt ks moved f.payload)
    (by rw [xorAt_length]; exact hfit)
  rw [xorAt_length] at htail
  exact {
    ready := h.ready
    mode_eq := h.mode_eq
    frames_mode := h.frames_mode
    ctx := rfl
    frames_eq := by rw [h.frames_eq, List.append_assoc, List.singleton_append]
    received_eq := by
      rw [hrec]
      simp only [consumeIn, appendReasm, ringContents_ringConsume]
    received_prefix := h.received_prefix
    moved_eq := by
      rw [flatMap_concat, List.length_append, ← h.moved_eq]
    reasm_eq := by
      simp only [consumeIn, appendReasm, hcontents]
      rw [flatMap_concat, xorAt_append, ← h.reasm_eq, ← h.moved_eq, Nat.zero_add,
        List.append_assoc]
    in_tail := by
      simp only [consumeIn, appendReasm, ringConsume_cap]
      exact (ringConsume_tail_le _ _).trans h.in_tail
    reasm_tail := by
      simp only [consumeIn, appendReasm, htail, ringAppend_cap]
      exact hfit }

/-- Bytes have been cut off the front of `reasm_in`. -/
theorem cutOff {n : ℕ} {bs : Bytes}
    (h : DeframingAt mode frames ks received s moved done rest cut)
    (hbs : (ringContents s.reasmIn).take n = bs) :
    DeframingAt mode frames ks received (consumeReasm s n) moved done rest (cut ++ bs) :=
  { h with
    reasm_eq := by
      have hsplit := List.take_append_drop n (ringContents s.reasmIn)
      rw [hbs] at hsplit
      simp only [consumeReasm, ringContents_ringConsume]
      rw [List.append_assoc, hsplit]
      exact h.reasm_eq
    reasm_tail := by
      simp only [consumeReasm, ringConsume_cap]
      exact (ringConsume_tail_le _ _).trans h.reasm_tail }

/-- Neither `plain_in` nor `out_ring` is part of it. -/
theorem setPlain (h : DeframingAt mode frames ks received s moved done rest cut) (t : ClientStream)
    (hstate : t.state = s.state) (hmode : t.mode = s.mode) (hctx : t.decryptCtx = s.decryptCtx)
    (hin : t.inRing = s.inRing) (hreasm : t.reasmIn = s.reasmIn) :
    DeframingAt mode frames ks received t moved done rest cut where
  ready := hstate.trans h.ready
  mode_eq := hmode.trans h.mode_eq
  frames_mode := h.frames_mode
  ctx := hctx.trans h.ctx
  frames_eq := h.frames_eq
  received_eq := hin ▸ h.received_eq
  received_prefix := h.received_prefix
  moved_eq := h.moved_eq
  reasm_eq := hreasm ▸ h.reasm_eq
  in_tail := hin ▸ h.in_tail
  reasm_tail := hreasm ▸ h.reasm_tail

/-- What TLS delivers comes behind what has been received. -/
theorem read (h : DeframingAt mode frames ks received s moved done rest cut) (env : PumpEnv)
    (hlegal : received ++ env.reads.flatten <+: frames.flatMap ServerFrame.encode)
    (hreads : ReadsFit env.reads s.inRing) :
    DeframingAt mode frames ks (received ++ env.reads.flatten) (pumpRead s env) moved done rest
      cut := by
  obtain ⟨hcontents, htail⟩ := sslReadIn_of_fits env.reads env.ended s.inRing hreads h.in_tail
  exact { h with
    received_eq := by
      rw [h.received_eq, List.append_assoc]
      simp only [pumpRead, hcontents]
    received_prefix := hlegal
    in_tail := by
      simp only [pumpRead, sslReadIn_cap]
      exact htail }

end DeframingAt

section Deframe

variable {mode : T3cMode} {frames : List ServerFrame} {ks : Keystream} {received cut : Bytes}

/-- What the cipher does to a payload. -/
theorem t3cAesCrypt_payload {moved : ℕ} {payload : Bytes} {ctx : CtrContext} {decrypted : Bytes}
    (hlen : payload.length ≤ RING_CAP)
    (h : t3cAesCrypt (some ⟨ks, moved⟩) payload payload.length = some (ctx, decrypted)) :
    payload.length ≠ 0 ∧ ctx = ⟨ks, moved + payload.length⟩ ∧ decrypted = xorAt ks moved payload := by
  have h0 : payload.length ≠ 0 := by
    intro h0
    simp only [t3cAesCrypt, if_pos h0] at h
    cases h
  rw [t3cAesCrypt_some _ _ h0 (by simp only [RING_CAP] at hlen; omega)] at h
  obtain ⟨h1, h2⟩ := Prod.mk.inj (Option.some.inj h)
  exact ⟨h0, h1.symm, h2.symm⟩

/-- How far the first loop has come, for some number of frames. -/
def Deframing (mode : T3cMode) (frames : List ServerFrame) (ks : Keystream) (received cut : Bytes)
    (s : ClientStream) (moved : ℕ) : Prop :=
  ∃ done rest, DeframingAt mode frames ks received s moved done rest cut

/-- A turn that starts another one takes a frame off the stream, and leaves `plain_in` alone. -/
theorem Deframing.again {y y' : Incoming}
    (h : Deframing mode frames ks received cut y.stream y.moved) (hfit : DeframeFits y)
    (hturn : deframeTurn y = .again y') :
    Deframing mode frames ks received cut y'.stream y'.moved ∧
      y'.stream.plainIn = y.stream.plainIn := by
  obtain ⟨done, rest, hat⟩ := h
  obtain ⟨hne, hcases⟩ := deframeTurn_again hturn
  obtain ⟨f, rest', rfl, hfront⟩ := hat.front hne
  rcases hcases with ⟨consumed, hread, rfl⟩ |
    ⟨payload, payloadLen, consumed, ctx, decrypted, hread, hm, -, hcrypt, -, rfl⟩
  · rcases hfront with hwait | ⟨hreading, -, hrec⟩
    · rw [hread] at hwait
      exact absurd hwait (by simp)
    · rw [hread] at hreading
      obtain ⟨hpay, rfl⟩ := f.reading_terminal hreading.symm
      exact ⟨⟨_, _, hat.skip hpay hrec⟩, rfl⟩
  · rcases hfront with hwait | ⟨hreading, hlen, hrec⟩
    · rw [hread] at hwait
      exact absurd hwait (by simp)
    · rw [hread] at hreading
      obtain ⟨rfl, rfl, rfl⟩ := f.reading_frame hreading.symm
      rw [hat.ctx] at hcrypt
      obtain ⟨h0, rfl, rfl⟩ := t3cAesCrypt_payload (f.payload_length_le.trans hlen) hcrypt
      exact ⟨⟨_, _, hat.move hrec (hfit _ _ _ hread hm h0)⟩, rfl⟩

/-- **The first loop** takes frames off the stream, and leaves `plain_in` alone. -/
theorem deframe_deframing (x : Incoming) (h : Deframing mode frames ks received cut x.stream x.moved)
    (hfits : EachTurn deframeTurn DeframeFits x) :
    Deframing mode frames ks received cut (deframe x).1.stream (deframe x).1.moved ∧
      (deframe x).1.stream.plainIn = x.stream.plainIn := by
  refine loop_inv_of_eachTurn
    (I := fun y => Deframing mode frames ks received cut y.stream y.moved ∧
      y.stream.plainIn = x.stream.plainIn)
    (Q := fun r => Deframing mode frames ks received cut r.1.stream r.1.moved ∧
      r.1.stream.plainIn = x.stream.plainIn)
    deframeTurn_shrinks ?_ ?_ ⟨h, rfl⟩ hfits
  · rintro y y' ⟨hy, hplain⟩ hfit hturn
    obtain ⟨hy', hplain'⟩ := hy.again hfit hturn
    exact ⟨hy', hplain'.trans hplain⟩
  · rintro y r ⟨hy, hplain⟩ hfit hturn
    rcases deframeTurn_done hturn with ⟨hs, hm⟩ |
      ⟨payload, payloadLen, consumed, ctx, decrypted, hne, hread, hm, hcrypt, hrefused, -, -⟩
    · rw [hs, hm]
      exact ⟨hy, hplain⟩
    · -- A payload that fits is not refused.
      exfalso
      obtain ⟨done, rest, hat⟩ := hy
      obtain ⟨f, rest', rfl, hfront⟩ := hat.front hne
      rcases hfront with hwait | ⟨hreading, hlen, -⟩
      · rw [hread] at hwait
        exact absurd hwait (by simp)
      · rw [hread] at hreading
        obtain ⟨rfl, rfl, rfl⟩ := f.reading_frame hreading.symm
        rw [hat.ctx] at hcrypt
        obtain ⟨h0, rfl, rfl⟩ := t3cAesCrypt_payload (f.payload_length_le.trans hlen) hcrypt
        have hfits := hfit _ _ _ hread hm h0
        exact hrefused (ringAppend_of_fits _ _ (by rw [xorAt_length]; exact hfits)).1

/-- **Where the first loop stops**, over frames that carry something and are waited for as long as
they are not complete: with memory enough it returns `0`, and the next frame is not complete. -/
theorem deframe_stops (x : Incoming)
    (h : Deframing mode frames ks received cut x.stream x.moved)
    (hfits : EachTurn deframeTurn DeframeFits x)
    (hmemory : EachTurn deframeTurn (fun y => y.mallocs ≠ 0) x)
    (hpayload : ∀ f ∈ frames, f.payload ≠ [])
    (hwaits : ∀ f ∈ frames, ∀ p, p <+: f.encode → p.length < f.encode.length →
      readFrame mode p = .needMore) :
    (deframe x).2 = 0 ∧ ∃ done rest,
      DeframingAt mode frames ks received (deframe x).1.stream (deframe x).1.moved done rest cut ∧
      ∀ f rest', rest = f :: rest' →
        ¬ f.encode <+: ringContents (deframe x).1.stream.inRing := by
  refine loop_inv_of_eachTurn
    (I := fun y => Deframing mode frames ks received cut y.stream y.moved)
    (Q := fun r => r.2 = 0 ∧ ∃ done rest,
      DeframingAt mode frames ks received r.1.stream r.1.moved done rest cut ∧
      ∀ f rest', rest = f :: rest' → ¬ f.encode <+: ringContents r.1.stream.inRing)
    deframeTurn_shrinks ?_ ?_ h (hfits.and hmemory)
  · exact fun y y' hy hP hturn => (hy.again hP.1 hturn).1
  rintro y r ⟨done, rest, hat⟩ ⟨hfit, hm⟩ hturn
  have hused := ringContents_length y.stream.inRing
  by_cases hne : ringUsed y.stream.inRing = 0
  · have hdone : deframeTurn y = .done (y, 0) := by
      simp only [deframeTurn, ringContents_length, hne, if_true]
    rw [← Turn.done.inj (hdone.symm.trans hturn)]
    refine ⟨rfl, done, rest, hat, fun f rest' _ hf => ?_⟩
    have hle : f.encode.length ≤ (ringContents y.stream.inRing).length := hf.length_le
    have hpos := f.encode_length_pos
    omega
  have hp := hat.in_prefix
  cases rest with
  | nil =>
    rw [List.flatMap_nil] at hp
    rw [List.prefix_nil.mp hp] at hused
    exact absurd hused.symm hne
  | cons f rest' =>
    have hf : f ∈ frames := by
      rw [hat.frames_eq]
      exact List.mem_append_right _ List.mem_cons_self
    rw [List.flatMap_cons] at hp
    rcases prefix_append_cases hp with ⟨hpart, hlt⟩ | ⟨q, hq, -⟩
    · have hread := hwaits f hf _ hpart hlt
      have hdone : deframeTurn y = .done (y, 0) := by
        simp only [deframeTurn, ringContents_length, if_neg hne, hat.mode_eq, hread]
      rw [← Turn.done.inj (hdone.symm.trans hturn)]
      refine ⟨rfl, done, f :: rest', hat, fun g rest'' heq hg => ?_⟩
      obtain ⟨rfl, -⟩ := List.cons.inj heq
      have hle : f.encode.length ≤ (ringContents y.stream.inRing).length := hg.length_le
      omega
    · -- The next frame is complete, and nothing keeps the loop from moving it.
      exfalso
      have hlen : f.encode.length ≤ RING_CAP := by
        have hle := DeframingAt.in_length_le (s := y.stream)
        rw [hq, List.length_append] at hle
        omega
      have hread : readFrame y.stream.mode (ringContents y.stream.inRing) = f.reading := by
        rw [hat.mode_eq, ← hat.frames_mode f hf, hq]
        exact readFrame_encode f q (by simp only [RING_CAP] at hlen; omega)
      have hreading := f.reading_of_payload (hpayload f hf)
      rw [hreading] at hread
      have h0 : f.payload.length ≠ 0 := mt List.length_eq_zero_iff.mp (hpayload f hf)
      have hple := f.payload_length_le.trans hlen
      have hcap : RING_CAP < 2 ^ 31 := by decide
      have hcrypt : t3cAesCrypt y.stream.decryptCtx f.payload f.payload.length =
          some (⟨ks, y.moved + f.payload.length⟩, xorAt ks y.moved f.payload) := by
        rw [hat.ctx]
        exact t3cAesCrypt_some _ _ h0 (by omega)
      have hagain := deframeTurn_frame hne hread hm (by omega) hcrypt
      have hroom := hfit _ _ _ hread hm h0
      have hok := (ringAppend_of_fits y.stream.reasmIn (xorAt ks y.moved f.payload)
        (by rw [xorAt_length]; exact hroom)).1
      dsimp only at hagain
      rw [if_neg (not_not.mpr hok)] at hagain
      cases hagain.symm.trans hturn

end Deframe

end Client
end Teleproto3
