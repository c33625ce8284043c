/-
# What the client's frame reader hands out

`t3c_ws_frame_read` on any bytes, and what the first loop of `process_incoming` makes of the frames
it reports.

The reader adds a 64-bit length to the size of the header in a `size_t`.  For the ten lengths at
the top the sum wraps around, and a frame is reported whose payload is not in the buffer.  A masked
frame is refused, but only once it is all there.  And the opcode is not looked at: whatever a frame
is, its payload goes into the cipher stream.  `wsReader_iff` says for which bytes, and in which
runs, none of this happens.
-/

import Teleproto3.Client.Receive
import Teleproto3.Wire.WsHead

namespace Teleproto3
namespace Client

open Lib Wire

/-! ### The reader behind a head -/

/-- **A head is read back**, whatever is behind it. -/
theorem t3cWsFrameRead_head (h : WsHead) (rest : Bytes) :
    t3cWsFrameRead (h.bytes ++ rest) =
      wsReadPayload (h.bytes ++ rest) h.masked h.length.value h.size := by
  have hsize := h.size_bounds
  have hlen : ¬ (h.bytes ++ rest).length < 2 := by
    rw [List.length_append, h.bytes_length]
    omega
  rw [t3cWsFrameRead, if_neg hlen]
  simp only [h.getD_one, h.drop_two, h.code_eq, h.masked_iff, Bool.decide_eq_true]
  rw [List.length_append, h.bytes_length]
  obtain ⟨first, masked, l⟩ := h
  cases l with
  | seven n hn =>
    simp only [WsLength.code, WsLength.value]
    rw [if_neg (by omega), if_neg (by omega)]
    rfl
  | sixteen n hn =>
    have hsz : (⟨first, masked, .sixteen n hn⟩ : WsHead).size = 4 := by
      simp [WsHead.size, WsLength.more]
    have hvalue : beValue ((beBytes 2 n ++ rest).take 2) = n := by
      rw [List.take_left' (beBytes_length 2 n), beValue_beBytes 2 n hn]
    simp only [WsLength.code, WsLength.value, WsLength.more, hsz, hvalue, if_true]
    rw [if_neg (by omega)]
  | sixtyFour n hn =>
    have hsz : (⟨first, masked, .sixtyFour n hn⟩ : WsHead).size = 10 := by
      simp [WsHead.size, WsLength.more]
    have hvalue : beValue ((beBytes 8 n ++ rest).take 8) = n := by
      rw [List.take_left' (beBytes_length 8 n), beValue_beBytes 8 n hn]
    simp only [WsLength.code, WsLength.value, WsLength.more, hsz, hvalue, if_true]
    rw [if_neg (by omega), if_neg (by omega)]

/-- The beginning of a head asks for more. -/
theorem t3cWsFrameRead_part {h : WsHead} {p : Bytes} (hp : h.PartOf p) :
    t3cWsFrameRead p = .needMore := by
  rw [t3cWsFrameRead]
  by_cases h2 : p.length < 2
  · rw [if_pos h2]
  rw [if_neg h2]
  have hsecond : p.getD 1 0 = h.second := by
    have hpre : p <+: h.bytes := ⟨_, hp.completes.symm⟩
    exact getD_of_prefix hpre (by omega) 0
  have hshort := hp.short
  rw [WsHead.size] at hshort
  simp only [hsecond, h.code_eq]
  cases hl : h.length with
  | seven n hn =>
    rw [hl, WsLength.more, List.length_nil] at hshort
    omega
  | sixteen n hn =>
    rw [hl, WsLength.more, beBytes_length] at hshort
    rw [WsLength.code, if_pos rfl, if_pos (by omega)]
  | sixtyFour n hn =>
    rw [hl, WsLength.more, beBytes_length] at hshort
    rw [WsLength.code, if_neg (by decide), if_pos rfl, if_pos (by omega)]

/-- Where the MASK bit is set, no frame is handed out. -/
theorem t3cWsFrameRead_masked {h : WsHead} (hmasked : h.masked = true) (rest : Bytes) :
    t3cWsFrameRead (h.bytes ++ rest) =
      if (h.bytes ++ rest).length < (h.size + 4 + h.length.value) % 2 ^ 64 then .needMore
      else .error := by
  rw [t3cWsFrameRead_head, hmasked]
  rfl

/-- A length that the sum with the header size is right for. -/
theorem t3cWsFrameRead_unmasked {h : WsHead} (hmasked : h.masked = false)
    (hsum : h.size + h.length.value < 2 ^ 64) (rest : Bytes) :
    t3cWsFrameRead (h.bytes ++ rest) =
      if rest.length < h.length.value then .needMore
      else .frame (rest.take h.length.value) h.length.value (h.size + h.length.value) := by
  have hhead := wsReadPayload_append h.bytes rest h.length.value (by rwa [h.bytes_length])
  rw [h.bytes_length] at hhead
  rw [t3cWsFrameRead_head, hmasked, hhead]

/-- A length with which it wraps around. -/
theorem t3cWsFrameRead_wrapped {h : WsHead} (hmasked : h.masked = false)
    (hsum : 2 ^ 64 ≤ h.size + h.length.value) (rest : Bytes) :
    ∃ consumed < 10, t3cWsFrameRead (h.bytes ++ rest) =
      .frame (rest.take h.length.value) h.length.value consumed := by
  have hvalue := h.length.value_lt
  have hsize := h.size_bounds
  have hten : h.size = 10 := by
    cases hl : h.length with
    | seven n hn =>
      simp only [hl, WsLength.value] at hsum
      omega
    | sixteen n hn =>
      simp only [hl, WsLength.value] at hsum
      omega
    | sixtyFour n hn => simp [WsHead.size, hl, WsLength.more]
  refine ⟨(h.size + h.length.value) % 2 ^ 64, by omega, ?_⟩
  have hdrop : (h.bytes ++ rest).drop h.size = rest := List.drop_left' h.bytes_length
  have hshort : ¬ (h.bytes ++ rest).length < (h.size + h.length.value) % 2 ^ 64 := by
    rw [List.length_append, h.bytes_length]
    omega
  rw [t3cWsFrameRead_head, hmasked, wsReadPayload]
  simp only [Bool.false_eq_true, if_false, if_neg hshort, hdrop]

/-! ### One buffer -/

/-- **What the reader promises of a buffer**: a payload it reports lies in the buffer behind a
header and is consumed with it, and where it asks for more, more can complete the frame. -/
structure ReadsSoundly (buf : Bytes) : Prop where
  inside : ∀ payload payloadLen consumed,
    t3cWsFrameRead buf = .frame payload payloadLen consumed →
      ∃ header rest, buf = header ++ payload ++ rest ∧ payload.length = payloadLen ∧
        header ≠ [] ∧ consumed = header.length + payloadLen
  waits : t3cWsFrameRead buf = .needMore →
    ∃ more payload, t3cWsFrameRead (buf ++ more) =
      .frame payload payload.length (buf ++ more).length

/-- **The condition.**  An unmasked header and its length come to less than `2 ^ 64`.  Where the
MASK bit is set, the header is all there, and with its payload, as far as a `size_t` counts, it is
not longer than the buffer. -/
structure FitsReader (buf : Bytes) : Prop where
  unmasked : ∀ (h : WsHead) (rest : Bytes), buf = h.bytes ++ rest → h.masked = false →
    h.size + h.length.value < 2 ^ 64
  masked : (buf.getD 1 0).toNat / 128 = 1 → ∃ (h : WsHead) (rest : Bytes),
    buf = h.bytes ++ rest ∧ (h.size + 4 + h.length.value) % 2 ^ 64 ≤ buf.length

/-- No frame is handed out of a buffer whose MASK bit is set. -/
theorem not_frame_of_masked {buf payload : Bytes} {payloadLen consumed : ℕ}
    (hmasked : (buf.getD 1 0).toNat / 128 = 1) :
    t3cWsFrameRead buf ≠ .frame payload payloadLen consumed := by
  intro hread
  rcases WsHead.cases buf with ⟨h, rest, rfl⟩ | ⟨h, hpart⟩
  · rw [h.getD_one, h.masked_iff] at hmasked
    rw [t3cWsFrameRead_masked hmasked] at hread
    split_ifs at hread
  · rw [t3cWsFrameRead_part hpart] at hread
    exact nomatch hread

/-- A header with a length that fits can be completed. -/
theorem exists_completing {h : WsHead} (hmasked : h.masked = false)
    (hsum : h.size + h.length.value < 2 ^ 64) {rest : Bytes} (hrest : rest.length ≤ h.length.value) :
    ∃ more payload, t3cWsFrameRead (h.bytes ++ rest ++ more) =
      .frame payload payload.length (h.bytes ++ rest ++ more).length := by
  set more : Bytes := List.replicate (h.length.value - rest.length) 0 with hmore
  have hlen : (rest ++ more).length = h.length.value := by
    rw [List.length_append, hmore, List.length_replicate]
    omega
  refine ⟨more, rest ++ more, ?_⟩
  rw [List.append_assoc, t3cWsFrameRead_unmasked hmasked hsum, if_neg (by omega), hlen,
    List.take_of_length_le (by omega), List.length_append, h.bytes_length, hlen]

/-- A sound reader wraps no length. -/
theorem ReadsSoundly.fits {buf : Bytes} (hsound : ReadsSoundly buf) (h : WsHead) (rest : Bytes)
    (hbuf : buf = h.bytes ++ rest) (hmasked : h.masked = false) :
    h.size + h.length.value < 2 ^ 64 := by
  by_contra hsum
  obtain ⟨consumed, hlt, hread⟩ := t3cWsFrameRead_wrapped hmasked (Nat.le_of_not_lt hsum) rest
  obtain ⟨header, -, -, -, -, hconsumed⟩ := hsound.inside _ _ _ (hbuf ▸ hread)
  have hsize := h.size_bounds
  omega

/-- Where the MASK bit is set, the reader refuses a frame that is all there as its length counts. -/
theorem FitsReader.refuses {buf : Bytes} (hfits : FitsReader buf)
    (hbit : (buf.getD 1 0).toNat / 128 = 1) : t3cWsFrameRead buf = .error := by
  obtain ⟨h, rest, rfl, hlen⟩ := hfits.masked hbit
  have hmasked : h.masked = true := by
    rw [h.getD_one] at hbit
    exact h.masked_iff.mp hbit
  rw [t3cWsFrameRead_masked hmasked, if_neg (Nat.not_lt_of_le hlen)]

/-- A header with the MASK bit. -/
theorem readsSoundly_masked_iff {h : WsHead} (hmasked : h.masked = true) (rest : Bytes) :
    ReadsSoundly (h.bytes ++ rest) ↔ FitsReader (h.bytes ++ rest) := by
  have hbit (more : Bytes) : ((h.bytes ++ more).getD 1 0).toNat / 128 = 1 := by
    rw [h.getD_one]
    exact h.masked_iff.mpr hmasked
  constructor
  · intro hsound
    refine ⟨hsound.fits, fun _ => ⟨h, rest, rfl, ?_⟩⟩
    by_contra hshort
    have hread := t3cWsFrameRead_masked hmasked rest
    rw [if_pos (Nat.lt_of_not_le hshort)] at hread
    obtain ⟨more, payload, hmore⟩ := hsound.waits hread
    refine not_frame_of_masked ?_ hmore
    rw [List.append_assoc]
    exact hbit _
  · intro hfits
    have hread := hfits.refuses (hbit rest)
    constructor
    · intro payload payloadLen consumed hframe
      cases hread.symm.trans hframe
    · intro hmore
      cases hread.symm.trans hmore

/-- A header without it. -/
theorem readsSoundly_unmasked_iff {h : WsHead} (hmasked : h.masked = false) (rest : Bytes) :
    ReadsSoundly (h.bytes ++ rest) ↔ FitsReader (h.bytes ++ rest) := by
  constructor
  · intro hsound
    refine ⟨hsound.fits, fun hbit => ?_⟩
    rw [h.getD_one, h.masked_iff, hmasked] at hbit
    cases hbit
  · intro hfits
    have hsum := hfits.unmasked h rest rfl hmasked
    have hread := t3cWsFrameRead_unmasked hmasked hsum rest
    have hne : h.bytes ≠ [] := List.cons_ne_nil _ _
    constructor
    · intro payload payloadLen consumed hframe
      rw [hread] at hframe
      split_ifs at hframe with hshort
      obtain ⟨rfl, rfl, rfl⟩ := WsRead.frame.inj hframe
      refine ⟨h.bytes, rest.drop h.length.value, ?_, ?_, hne, ?_⟩
      · rw [List.append_assoc, List.take_append_drop]
      · exact List.length_take_of_le (Nat.le_of_not_lt hshort)
      · rw [h.bytes_length]
    · intro hmore
      rw [hread] at hmore
      split_ifs at hmore with hshort
      exact exists_completing hmasked hsum hshort.le

/-- A part of a header. -/
theorem readsSoundly_part_iff {h : WsHead} {buf : Bytes} (hpart : h.PartOf buf) :
    ReadsSoundly buf ↔ FitsReader buf := by
  have hread := t3cWsFrameRead_part hpart
  have hpre : h.bytes = buf ++ List.replicate (h.size - buf.length) 0 := hpart.completes
  constructor
  · intro hsound
    refine ⟨hsound.fits, fun hbit => ?_⟩
    obtain ⟨more, payload, hmore⟩ := hsound.waits hread
    refine absurd hmore (not_frame_of_masked ?_)
    have hlen : 1 < buf.length := by
      by_contra hshort
      rw [List.getD_eq_default _ _ (by omega)] at hbit
      cases hbit
    rwa [List.getD_append _ _ _ _ hlen]
  · intro hfits
    constructor
    · intro payload payloadLen consumed hframe
      cases hread.symm.trans hframe
    · intro _
      have hmasked : h.masked = false := by
        rw [hpart.masked, decide_eq_false_iff_not]
        intro hbit
        cases hread.symm.trans (hfits.refuses hbit)
      have hsum : h.size + h.length.value < 2 ^ 64 := by
        have hvalue := hpart.value_le
        have hsize := h.size_bounds
        omega
      have hnone : ([] : Bytes).length ≤ h.length.value := Nat.zero_le _
      obtain ⟨more, payload, hmore⟩ := exists_completing hmasked hsum hnone
      rw [List.append_nil, hpre, List.append_assoc] at hmore
      exact ⟨_, payload, hmore⟩

/-- **The reader keeps its promise exactly under the condition.** -/
theorem readsSoundly_iff (buf : Bytes) : ReadsSoundly buf ↔ FitsReader buf := by
  rcases WsHead.cases buf with ⟨h, rest, rfl⟩ | ⟨h, hpart⟩
  · cases hmasked : h.masked with
    | true => exact readsSoundly_masked_iff hmasked rest
    | false => exact readsSoundly_unmasked_iff hmasked rest
  · exact readsSoundly_part_iff hpart

/-! ### A stream -/

/-- The frame at the front is one of data: in an HTTP stream every chunk, in a WebSocket stream a
CONTINUATION, TEXT or BINARY frame. -/
def CarriesData (s : ClientStream) : Prop :=
  s.mode = .http ∨ ((ringContents s.inRing).getD 0 0).toNat % 16 ≤ 2

instance (s : ClientStream) : Decidable (CarriesData s) := inferInstanceAs (Decidable (_ ∨ _))

/-- The first loop of `process_incoming` with a record: how many of the payload bytes moved into
`reasm_in` came out of other frames. -/
structure Sorted where
  incoming : Incoming
  stray : ℕ

/-- One turn of the loop with the record. -/
def sortTurn (y : Sorted) : Turn Sorted (Sorted × ℤ) :=
  match deframeTurn y.incoming with
  | .done r => .done (⟨r.1, y.stray⟩, r.2)
  | .again x =>
    .again ⟨x, if CarriesData y.incoming.stream then y.stray
      else y.stray + (x.moved - y.incoming.moved)⟩

theorem sortTurn_shrinks : Shrinks sortTurn fun y => y.incoming.left := by
  intro y y' h
  unfold sortTurn at h
  cases hturn : deframeTurn y.incoming with
  | done r =>
    rw [hturn] at h
    exact nomatch h
  | again x =>
    rw [hturn] at h
    rw [← Turn.again.inj h]
    exact deframeTurn_shrinks _ _ hturn

/-- The loop with the record. -/
def sortFrames (y : Sorted) : Sorted × ℤ :=
  loop sortTurn (fun y => y.incoming.left) sortTurn_shrinks y

/-- A turn without the record. -/
theorem sortTurn_map (y : Sorted) :
    deframeTurn y.incoming =
      (sortTurn y).map Sorted.incoming fun r => (r.1.incoming, r.2) := by
  unfold sortTurn
  cases deframeTurn y.incoming with
  | done r => rfl
  | again x => rfl

/-- **The condition for a turn.**  A control or reserved frame at the front of a WebSocket stream,
all there and with a payload, is not taken, for want of memory, of a cipher or of room in
`reasm_in`. -/
def ControlStays (x : Incoming) : Prop :=
  x.stream.mode = .ws → ∀ (h : WsHead) (rest : Bytes),
    ringContents x.stream.inRing = h.bytes ++ rest → h.masked = false → 2 < h.opcode →
      0 < h.length.value → h.length.value ≤ rest.length →
        x.mallocs = 0 ∨ x.stream.decryptCtx = none ∨
          x.stream.reasmIn.cap < ringUsed x.stream.reasmIn + h.length.value

/-- A frame that is all there is read. -/
theorem readFrame_head {s : ClientStream} (hmode : s.mode = .ws) {h : WsHead} {rest : Bytes}
    (hbuf : ringContents s.inRing = h.bytes ++ rest) (hmasked : h.masked = false)
    (hall : h.length.value ≤ rest.length) :
    h.length.value ≤ RING_CAP ∧ readFrame s.mode (ringContents s.inRing) =
      .frame (rest.take h.length.value) h.length.value (h.size + h.length.value) := by
  have hcap := ringUsed_le_cap s.inRing
  rw [← ringContents_length, s.inRing_cap, hbuf, List.length_append] at hcap
  have hle : h.length.value ≤ RING_CAP := by omega
  have hsize := h.size_bounds
  have hsum : h.size + h.length.value < 2 ^ 64 := by
    simp only [RING_CAP] at hle
    omega
  refine ⟨hle, ?_⟩
  rw [hmode, readFrame, hbuf, t3cWsFrameRead_unmasked hmasked hsum, if_neg (by omega)]

/-- A frame that is taken is one that is all there. -/
theorem exists_head_of_frame {s : ClientStream} (hmode : s.mode = .ws) {payload : Bytes}
    {payloadLen consumed : ℕ} (hlen : payloadLen < 2 ^ 63)
    (hread : readFrame s.mode (ringContents s.inRing) = .frame payload payloadLen consumed) :
    ∃ (h : WsHead) (rest : Bytes), ringContents s.inRing = h.bytes ++ rest ∧ h.masked = false ∧
      h.length.value = payloadLen ∧ payloadLen ≤ rest.length ∧
      payload = rest.take payloadLen := by
  rw [hmode, readFrame] at hread
  cases hframe : t3cWsFrameRead (ringContents s.inRing) with
  | needMore =>
    rw [hframe] at hread
    cases hread
  | error =>
    rw [hframe] at hread
    cases hread
  | frame p l c =>
    rw [hframe] at hread
    obtain ⟨rfl, rfl, rfl⟩ := FrameRead.frame.inj hread
    rcases WsHead.cases (ringContents s.inRing) with ⟨h, rest, hbuf⟩ | ⟨h, hpart⟩
    · rw [hbuf] at hframe
      cases hmasked : h.masked with
      | true =>
        rw [t3cWsFrameRead_masked hmasked] at hframe
        split_ifs at hframe
      | false =>
        by_cases hsum : h.size + h.length.value < 2 ^ 64
        · rw [t3cWsFrameRead_unmasked hmasked hsum] at hframe
          split_ifs at hframe with hshort
          obtain ⟨rfl, rfl, -⟩ := WsRead.frame.inj hframe
          exact ⟨h, rest, hbuf, hmasked, rfl, Nat.le_of_not_lt hshort, rfl⟩
        · obtain ⟨consumed, -, hwrapped⟩ :=
            t3cWsFrameRead_wrapped hmasked (Nat.le_of_not_lt hsum) rest
          rw [hwrapped] at hframe
          obtain ⟨-, rfl, -⟩ := WsRead.frame.inj hframe
          have := h.size_bounds
          omega
    · rw [t3cWsFrameRead_part hpart] at hframe
      cases hframe

/-- A turn that leaves meets the condition. -/
theorem ControlStays.of_done {x : Incoming} {r : Incoming × ℤ} (hturn : deframeTurn x = .done r) :
    ControlStays x := by
  intro hmode h rest hbuf hmasked hop hpos hall
  by_contra hno
  simp only [not_or] at hno
  obtain ⟨hm, hctx, hroom⟩ := hno
  obtain ⟨hle, hread⟩ := readFrame_head hmode hbuf hmasked hall
  have hused : ringUsed x.stream.inRing ≠ 0 := by
    have := h.size_bounds
    rw [← ringContents_length, hbuf, List.length_append, h.bytes_length]
    omega
  have htake : (rest.take h.length.value).length = h.length.value := List.length_take_of_le hall
  obtain ⟨c, hc⟩ := Option.ne_none_iff_exists'.mp hctx
  have hcrypt := t3cAesCrypt_some c (rest.take h.length.value) (by omega)
    (by simp only [RING_CAP] at hle; omega)
  rw [htake, ← hc] at hcrypt
  have hlen : h.length.value < 2 ^ 63 := by
    simp only [RING_CAP] at hle
    omega
  rw [deframeTurn_frame hused hread hm hlen hcrypt] at hturn
  have hok : (ringAppend x.stream.reasmIn
      (xorAt c.ks c.pos (rest.take h.length.value))).2 = 0 := by
    rw [ringAppend_ok_iff, xorAt_length, htake]
    omega
  dsimp only at hturn
  rw [if_neg (not_not.mpr hok)] at hturn
  cases hturn

/-- **What a turn moves**: nothing of any other frame exactly under the condition. -/
theorem sortTurn_stray {y y' : Sorted} (hturn : sortTurn y = .again y') :
    y.stray ≤ y'.stray ∧ (y'.stray = y.stray ↔ ControlStays y.incoming) := by
  unfold sortTurn at hturn
  cases hdeframe : deframeTurn y.incoming with
  | done r =>
    rw [hdeframe] at hturn
    cases hturn
  | again x =>
    rw [hdeframe] at hturn
    have hy' : y'.stray = if CarriesData y.incoming.stream then y.stray
        else y.stray + (x.moved - y.incoming.moved) := by rw [← Turn.again.inj hturn]
    refine ⟨by split_ifs at hy' <;> omega, ?_⟩
    obtain ⟨-, ⟨consumed, hread, hx⟩ | ⟨payload, payloadLen, consumed, ctx, decrypted, hread, hm,
      hlen, hc, hacc, hx⟩⟩ := deframeTurn_again hdeframe
    · -- A terminal chunk of an HTTP stream.
      have hhttp : y.incoming.stream.mode = .http := by
        cases hmode : y.incoming.stream.mode with
        | http => rfl
        | ws =>
          rw [hmode, readFrame] at hread
          cases hframe : t3cWsFrameRead (ringContents y.incoming.stream.inRing) <;>
            rw [hframe] at hread <;> cases hread
      rw [if_pos (show CarriesData y.incoming.stream from Or.inl hhttp)] at hy'
      refine iff_of_true hy' fun hws => ?_
      rw [hhttp] at hws
      cases hws
    · have hpos : payloadLen ≠ 0 := by
        rintro rfl
        cases hctx : y.incoming.stream.decryptCtx <;> simp [t3cAesCrypt, hctx] at hc
      have hmoved : x.moved = y.incoming.moved + payloadLen := by rw [hx]
      have hdata : y'.stray = y.stray ↔ CarriesData y.incoming.stream := by
        by_cases hcarries : CarriesData y.incoming.stream
        · rw [if_pos hcarries] at hy'
          exact iff_of_true hy' hcarries
        · rw [if_neg hcarries] at hy'
          exact iff_of_false (by omega) hcarries
      rw [hdata]
      constructor
      · rintro (hhttp | hopcode) hws head rest hbuf hmasked hop
        · rw [hhttp] at hws
          cases hws
        · rw [hbuf, head.getD_zero] at hopcode
          rw [WsHead.opcode] at hop
          omega
      · intro hstays
        by_contra hcarries
        simp only [CarriesData, not_or, not_le] at hcarries
        obtain ⟨hnot, hopcode⟩ := hcarries
        have hws : y.incoming.stream.mode = .ws := by
          cases hmode : y.incoming.stream.mode with
          | ws => rfl
          | http => exact absurd hmode hnot
        obtain ⟨head, rest, hbuf, hmasked, rfl, hall, rfl⟩ := exists_head_of_frame hws hlen hread
        have hle := (readFrame_head hws hbuf hmasked hall).1
        have htake : (rest.take head.length.value).length = head.length.value :=
          List.length_take_of_le hall
        rw [hbuf, head.getD_zero] at hopcode
        have hdecrypted : decrypted.length = head.length.value := by
          cases hctx : y.incoming.stream.decryptCtx with
          | none =>
            rw [hctx] at hc
            cases hc
          | some c =>
            have hsome := t3cAesCrypt_some c (rest.take head.length.value) (by omega)
              (by simp only [RING_CAP] at hle; omega)
            rw [htake, ← hctx, hc] at hsome
            obtain ⟨-, rfl⟩ := Prod.mk.inj (Option.some.inj hsome)
            rw [xorAt_length, htake]
        rcases hstays hws head rest hbuf hmasked hopcode (by omega) hall with hm0 | hctx | hroom
        · exact hm hm0
        · rw [hctx] at hc
          cases hc
        · rw [ringAppend_ok_iff] at hacc
          omega

/-- **What the loop moves.** -/
theorem sortFrames_stray {y : Sorted} (h0 : y.stray = 0) :
    (sortFrames y).1.stray = 0 ↔ EachTurn deframeTurn ControlStays y.incoming := by
  rw [eachTurn_map Sorted.incoming _ sortTurn_map sortTurn_shrinks]
  refine loop_iff_eachTurn (I := fun y => y.stray = 0) (Q := fun r => r.1.stray = 0)
    sortTurn_shrinks (fun y y' hy hturn => ?_) (fun y y' hy hturn => ?_) (fun y r hturn => ?_) h0
  · rw [← (sortTurn_stray hturn).2, hy]
  · have := (sortTurn_stray hturn).1
    omega
  · unfold sortTurn at hturn
    cases hdeframe : deframeTurn y.incoming with
    | done r' =>
      rw [hdeframe] at hturn
      rw [← Turn.done.inj hturn]
      exact ⟨Iff.rfl, .of_done hdeframe⟩
    | again x =>
      rw [hdeframe] at hturn
      exact nomatch hturn

/-! ### Runs -/

/-- A run with the record. -/
structure SortedSession where
  session : Session
  stray : ℕ

/-- One call of the application, with the record. -/
def SortedSession.step (x : SortedSession) (e : ClientEvent) : SortedSession where
  session := x.session.step e
  stray :=
    match e with
    | .pump env =>
      (sortFrames ⟨⟨pumpRead x.session.stream env, env.mallocs, x.session.moved⟩, x.stray⟩).1.stray
    | .read _ => x.stray

/-- **The condition for a call.** -/
def SortedSession.TakesData (x : SortedSession) : ClientEvent → Prop
  | .pump env =>
    EachTurn deframeTurn ControlStays
      ⟨pumpRead x.session.stream env, env.mallocs, x.session.moved⟩
  | .read _ => True

/-- A stream with a new record. -/
def SortedSession.opened (s : ClientStream) : SortedSession := ⟨⟨s, [], 0, []⟩, 0⟩

/-- A call that keeps to frames of data. -/
theorem SortedSession.step_stray {x : SortedSession} (h0 : x.stray = 0) (e : ClientEvent) :
    (x.step e).stray = 0 ↔ x.TakesData e := by
  cases e with
  | pump env => exact sortFrames_stray h0
  | read outCap => exact iff_of_true h0 trivial

/-- **A run keeps to frames of data exactly under the condition.** -/
theorem sortedRun_iff (s : ClientStream) (es : List ClientEvent) :
    Throughout SortedSession.step (fun x => x.stray = 0) (.opened s) es ↔
      Along SortedSession.step SortedSession.TakesData (.opened s) es := by
  refine throughout_iff_along (I := fun _ => True) (R := fun _ _ => True)
    (fun _ _ _ _ => trivial) (fun x e _ _ h0 => x.step_stray h0 e) trivial rfl ?_
  exact along_of_throughout (fun _ _ _ => trivial)
    (throughout_of_step (I := fun _ => True) (fun _ _ _ => trivial) trivial)

/-- **The reader of WebSocket frames**, for every buffer and in every run. -/
theorem wsReader_iff (buf : Bytes) (s : ClientStream) (es : List ClientEvent) :
    (ReadsSoundly buf ↔ FitsReader buf) ∧
      (Throughout SortedSession.step (fun x => x.stray = 0) (.opened s) es ↔
        Along SortedSession.step SortedSession.TakesData (.opened s) es) :=
  ⟨readsSoundly_iff buf, sortedRun_iff s es⟩

/-- The largest length there is: the reader reports a frame of which it consumes nine bytes. -/
theorem wsReader_not_sound :
    ¬ ((∀ buf, ReadsSoundly buf) ∧ ∀ (s : ClientStream) (es : List ClientEvent),
        Throughout SortedSession.step (fun x => x.stray = 0) (.opened s) es) := by
  rintro ⟨hsound, -⟩
  have hread : t3cWsFrameRead ([0x82, 0x7F] ++ List.replicate 8 0xFF) =
      .frame [] (2 ^ 64 - 1) 9 := by decide
  obtain ⟨header, rest, -, hlen, -⟩ := (hsound _).inside _ _ _ hread
  exact absurd hlen (by decide)

end Client
end Teleproto3
