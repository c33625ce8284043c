/-
# WebSocket frames before there is a cipher

`tcp_rpcs_compact_parse_execute` takes the payload out of the frames in `c->in` and puts it back
in front of what is left of them, and the dispatch hook and the code of the obfuscated2 header look
at `c->in` as a whole.

The loop itself is right (`wsUnwrapLoop_place`): what it has unmasked is the payload of what it has
consumed.  But what it leaves is in the same buffer.  Framed bytes that stay behind the payload,
a header in part or a frame behind a ping, are looked at as payload; and payload that has not been
taken when the function is called again is parsed as frames, or unmasked once more.
`wsPreCrypto_looks` says when neither happens.
-/

import Teleproto3.Server.CipherStart
import Teleproto3.Server.FrameDelivery

namespace Teleproto3
namespace Server

open Lib

/-! ### The loop -/

/-- The payload of the data frames. -/
def payloads (fs : List ClientFrame) : Bytes :=
  fs.flatMap fun f => if f.IsData then f.payload else []

/-- **Where the loop stands in a stream of frames**, of which `fut` has not arrived, `lead` is left
of its frame and `frames` stand behind that: what it has unmasked is followed in `whole` by their
payload. -/
structure UnwrapPlace (whole fut lead : Bytes) (frames : List ClientFrame) (u : WsUnwrap) :
    Prop where
  remaining : u.frames.remaining = lead.length
  bytes : u.frames.input ++ fut =
    wsUnmaskData u.frames.mask u.frames.maskOffset lead ++ encodeFrames frames
  payload : u.unmasked ++ (lead ++ payloads frames) = whole

variable {whole fut lead : Bytes} {frames : List ClientFrame} {u : WsUnwrap}

/-- What a turn of the loop comes to. -/
inductive UnwrapTurn (whole fut : Bytes) : Turn WsUnwrap WsUnwrap.Exit → Prop
  | goes (lead : Bytes) (frames : List ClientFrame) (u' : WsUnwrap)
      (h : UnwrapPlace whole fut lead frames u') : UnwrapTurn whole fut (.again u')
  | ends (lead : Bytes) (frames : List ClientFrame) (u' : WsUnwrap)
      (h : UnwrapPlace whole fut lead frames u') : UnwrapTurn whole fut (.done (.ok (u', true)))
  | failed (u' : WsUnwrap) : UnwrapTurn whole fut (.done (.ok (u', false)))
  | aborts (a : Abort) : UnwrapTurn whole fut (.done (.error a))

/-- The payload at hand is taken. -/
theorem UnwrapPlace.take (h : UnwrapPlace whole fut lead frames u) {k : ℕ}
    (hk : k ≤ u.frames.input.length) (hlead : k ≤ lead.length) :
    UnwrapPlace whole fut (lead.drop k) frames (u.take k) := by
  have hsplit : wsUnmaskData u.frames.mask u.frames.maskOffset lead =
      wsUnmaskData u.frames.mask u.frames.maskOffset (lead.take k) ++
        wsUnmaskData u.frames.mask (u.frames.maskOffset + k) (lead.drop k) := by
    conv_lhs => rw [← List.take_append_drop k lead, wsUnmaskData_append]
    rw [List.length_take_of_le hlead]
  have hfront : (wsUnmaskData u.frames.mask u.frames.maskOffset (lead.take k)).length = k := by
    rw [wsUnmaskData_length, List.length_take_of_le hlead]
  have hbytes := h.bytes
  rw [hsplit, List.append_assoc] at hbytes
  have htake : u.frames.input.take k =
      wsUnmaskData u.frames.mask u.frames.maskOffset (lead.take k) := by
    have := congrArg (List.take k) hbytes
    rwa [List.take_append_of_le_length hk, List.take_left' hfront] at this
  have hdrop : u.frames.input.drop k ++ fut =
      wsUnmaskData u.frames.mask (u.frames.maskOffset + k) (lead.drop k) ++ encodeFrames frames := by
    have := congrArg (List.drop k) hbytes
    rwa [List.drop_append_of_le_length hk, List.drop_left' hfront] at this
  refine ⟨?_, ?_, ?_⟩
  · show u.frames.remaining - k = (lead.drop k).length
    rw [h.remaining, List.length_drop]
  · show u.frames.input.drop k ++ fut =
      wsUnmaskData u.frames.mask ((u.frames.maskOffset + k) % 4) (lead.drop k) ++ _
    rw [wsUnmaskData_mod, hdrop]
  · show u.unmasked ++ wsUnmaskData _ _ (u.frames.input.take k) ++ (lead.drop k ++ _) = whole
    rw [htake, wsUnmaskData_masked, List.append_assoc, ← List.append_assoc (lead.take k),
      List.take_append_drop]
    exact h.payload

/-- The part of a turn that takes payload. -/
theorem UnwrapPlace.takeTurn (h : UnwrapPlace whole fut lead frames u) :
    UnwrapTurn whole fut (wsTakeTurn u) := by
  have hmin : min u.frames.input.length u.frames.remaining ≤ lead.length := by
    rw [← h.remaining]
    exact Nat.min_le_right _ _
  unfold wsTakeTurn
  dsimp only
  split_ifs
  · exact .ends lead frames u h
  · exact .goes _ frames _ (h.take (Nat.min_le_left _ _) hmin)

/-- **A turn of the loop.** -/
theorem UnwrapPlace.turn (h : UnwrapPlace whole fut lead frames u) :
    UnwrapTurn whole fut (wsUnwrapTurn u) := by
  unfold wsUnwrapTurn
  by_cases hin : u.frames.input.length = 0
  · rw [if_pos hin]
    exact .ends lead frames u h
  rw [if_neg hin]
  by_cases hzero : u.frames.remaining = 0
  · rw [if_pos hzero]
    obtain rfl : lead = [] := List.length_eq_zero_iff.mp (h.remaining.symm.trans hzero)
    cases frames with
    | nil =>
      refine absurd ?_ hin
      rw [(List.append_eq_nil_iff.mp h.bytes).1]
      rfl
    | cons f frames =>
      have hnext : u.frames.input ++ fut = f.encode ++ encodeFrames frames := by
        rw [← encodeFrames_cons]
        exact h.bytes
      have hpayload := h.payload
      have hresult : HeaderResult f u.frames (wsParseFrameHeader u.frames) :=
        wsParseFrameHeader_result hnext
      generalize wsParseFrameHeader u.frames = x at hresult ⊢
      cases hresult with
      | waits v hinput hremaining _ _ =>
        refine .ends [] (f :: frames) _ ⟨hremaining.trans hzero, ?_, hpayload⟩
        show v.input ++ fut = _
        rw [hinput]
        exact h.bytes
      | skips v _ hcontrol hlen hinput hremaining =>
        refine .ends [] frames _ ⟨hremaining.trans hzero, ?_, ?_⟩
        · show v.input ++ fut = encodeFrames frames
          have hdrop := congrArg (List.drop f.encode.length) hnext
          rwa [List.drop_append_of_le_length hlen, List.drop_left, ← hinput] at hdrop
        · have hnone : payloads (f :: frames) = payloads frames := by
            rw [payloads, List.flatMap_cons, if_neg fun hdata => hdata.2 hcontrol]
            rfl
          rwa [hnone] at hpayload
      | opens _ hdata hlen =>
        have hplace : UnwrapPlace whole fut f.payload frames { u with frames :=
            ⟨u.frames.input.drop f.headerLen, f.payload.length, f.mask, 0⟩ } := by
          refine ⟨rfl, ?_, ?_⟩
          · have hdrop := congrArg (List.drop f.headerLen) hnext
            rwa [List.drop_append_of_le_length hlen, ClientFrame.encode, List.append_assoc,
              List.drop_left' f.header_length] at hdrop
          · have hsome : payloads (f :: frames) = f.payload ++ payloads frames := by
              rw [payloads, List.flatMap_cons, if_pos hdata]
              rfl
            rwa [hsome] at hpayload
        dsimp only
        rw [if_neg (by omega)]
        split_ifs
        · exact .ends _ _ _ hplace
        · exact hplace.takeTurn
      | refused v _ _ => exact .failed _
      | aborts a _ => exact .aborts a
  · rw [if_neg hzero]
    exact h.takeTurn

/-- **What the loop has unmasked is the payload of what it has consumed.** -/
theorem wsUnwrapLoop_place (h : UnwrapPlace whole fut lead frames u) {v : WsUnwrap}
    (hloop : wsUnwrapLoop u = .ok (v, true)) :
    ∃ lead' frames', UnwrapPlace whole fut lead' frames' v := by
  have hrule := loop_inv
    (I := fun w => ∃ lead' frames', UnwrapPlace whole fut lead' frames' w)
    (Q := fun exit => ∀ v, exit = .ok (v, true) → ∃ lead' frames', UnwrapPlace whole fut lead' frames' v)
    wsUnwrapTurn_shrinks ?_ ?_ ⟨lead, frames, h⟩
  · exact hrule v hloop
  · rintro w w' ⟨lead', frames', hw⟩ hturn
    have hresult := hw.turn
    rw [hturn] at hresult
    cases hresult with
    | goes lead'' frames'' _ hw' => exact ⟨lead'', frames'', hw'⟩
  · rintro w exit ⟨lead', frames', hw⟩ hturn v rfl
    have hresult := hw.turn
    rw [hturn] at hresult
    cases hresult with
    | ends lead'' frames'' _ hw' => exact ⟨lead'', frames'', hw'⟩

/-! ### What it unmasks, and what it leaves -/

/-- A frame whose payload the loop takes, and goes on behind it. -/
def ClientFrame.Passes (f : ClientFrame) : Prop := f.Served ∧ ¬ f.ReturnsZero

/-- `ws_parse_frame_header` waits for more of what stands here. -/
def HeaderWaits (tail : Bytes) : Prop :=
  ∀ w : WsIn, w.input = tail →
    ∃ v, wsParseFrameHeader w = .ok (v, 0) ∧ v.input = tail ∧ v.remaining = w.remaining

/-- It refuses what stands here. -/
def HeaderRefuses (tail : Bytes) : Prop :=
  ∀ w : WsIn, w.input = tail →
    (∃ v, wsParseFrameHeader w = .ok (v, -1)) ∨ ∃ a, wsParseFrameHeader w = .error a

/-- **The loop unmasks `p` bytes of what stands behind its frame, and leaves `r`.** -/
inductive Unwraps : Bytes → ℕ → ℕ → Prop
  | nil : Unwraps [] 0 0
  | waits {tail : Bytes} (h : HeaderWaits tail) : Unwraps tail 0 tail.length
  | refused {tail : Bytes} (h : HeaderRefuses tail) (p r : ℕ) : Unwraps tail p r
  | stops {s : ClientFrame} (hserved : s.Served) (hzero : s.ReturnsZero) (rest : Bytes) :
      Unwraps (s.encode ++ rest) 0 rest.length
  | part {f : ClientFrame} {tail fut : Bytes} (h : tail ++ fut = f.encode) (hfut : fut ≠ [])
      (hpasses : f.Passes) (hlen : f.headerLen ≤ tail.length) :
      Unwraps tail (tail.length - f.headerLen) 0
  | frame {f : ClientFrame} {rest : Bytes} {p r : ℕ} (hpasses : f.Passes) (h : Unwraps rest p r) :
      Unwraps (f.encode ++ rest) (f.payload.length + p) r

theorem ClientFrame.Passes.data {f : ClientFrame} (h : f.Passes) :
    f.IsData ∧ f.payload.length ≠ 0 := by
  have hdata : f.IsData := ⟨h.1.1, fun hcontrol => h.2 (Or.inl hcontrol)⟩
  exact ⟨hdata, fun h0 => h.2 (Or.inr ⟨hdata, List.length_eq_zero_iff.mp h0⟩)⟩

/-- A turn between two frames, with bytes at hand. -/
theorem wsUnwrapTurn_between (hzero : u.frames.remaining = 0) (hin : u.frames.input.length ≠ 0) :
    wsUnwrapTurn u = match wsParseFrameHeader u.frames with
      | .error a => .done (.error a)
      | .ok (w, payloadLen) =>
        if payloadLen < 0 then .done (.ok ({ u with frames := w }, false))
        else if payloadLen = 0 then .done (.ok ({ u with frames := w }, true))
        else wsTakeTurn { u with frames := w } :=
  (if_neg hin).trans (if_pos hzero)

/-- A turn with the header of a frame that passes at hand. -/
theorem wsUnwrapTurn_passes {f : ClientFrame} {tail : Bytes} (hpasses : f.Passes)
    (hzero : u.frames.remaining = 0) (h : u.frames.input ++ fut = f.encode ++ tail)
    (hlen : f.headerLen ≤ u.frames.input.length) :
    wsUnwrapTurn u = wsTakeTurn { u with frames :=
      ⟨u.frames.input.drop f.headerLen, f.payload.length, f.mask, 0⟩ } := by
  obtain ⟨hdata, hpos⟩ := hpasses.data
  have hheader := f.headerLen_le
  have hresult : HeaderResult f u.frames (wsParseFrameHeader u.frames) :=
    wsParseFrameHeader_result h
  rw [wsUnwrapTurn_between hzero (by omega)]
  generalize wsParseFrameHeader u.frames = x at hresult ⊢
  cases hresult with
  | waits _ _ _ _ hshort => exact absurd (hshort hdata) (not_lt.mpr hlen)
  | skips _ _ hcontrol _ _ _ => exact absurd hcontrol hdata.2
  | opens _ _ _ =>
    dsimp only
    rw [if_neg (by omega), if_neg (by exact_mod_cast hpos)]
  | refused _ hnot _ => exact absurd hpasses.1 hnot
  | aborts _ hnot => exact absurd hpasses.1 hnot

/-- The payload of a frame whose end is at hand is taken in one turn. -/
theorem wsUnwrapLoop_whole {w : WsUnwrap} (hturn : wsUnwrapTurn u = wsTakeTurn w)
    (hpos : w.frames.remaining ≠ 0) (hlen : w.frames.remaining ≤ w.frames.input.length) :
    ∃ w', wsUnwrapLoop u = wsUnwrapLoop w' ∧ w'.frames.remaining = 0 ∧
      w'.frames.input = w.frames.input.drop w.frames.remaining ∧
      w'.unmasked.length = w.unmasked.length + w.frames.remaining := by
  have hmin : min w.frames.input.length w.frames.remaining = w.frames.remaining := by omega
  refine ⟨w.take w.frames.remaining, loop_of_again _ ?_, Nat.sub_self _, rfl, ?_⟩
  · rw [hturn]
    unfold wsTakeTurn
    dsimp only
    rw [hmin, if_neg hpos]
  · simp only [WsUnwrap.take, List.length_append, wsUnmaskData_length, List.length_take_of_le hlen]

/-- A part of the payload is taken, and that is all. -/
theorem wsUnwrapLoop_part {w v : WsUnwrap} {alive : Bool} (hturn : wsUnwrapTurn u = wsTakeTurn w)
    (hlen : w.frames.input.length < w.frames.remaining) (hloop : wsUnwrapLoop u = .ok (v, alive)) :
    v.frames.input = [] ∧ v.unmasked.length = w.unmasked.length + w.frames.input.length := by
  have hmin : min w.frames.input.length w.frames.remaining = w.frames.input.length := by omega
  unfold wsTakeTurn at hturn
  dsimp only at hturn
  rw [hmin] at hturn
  by_cases hnone : w.frames.input.length = 0
  · rw [if_pos hnone] at hturn
    have hdone : wsUnwrapLoop u = .ok (w, true) := loop_of_done _ hturn
    obtain ⟨rfl, -⟩ := Prod.mk.inj (Except.ok.inj (hdone.symm.trans hloop))
    exact ⟨List.length_eq_zero_iff.mp hnone, by rw [hnone, Nat.add_zero]⟩
  · rw [if_neg hnone] at hturn
    have hnil : (w.take w.frames.input.length).frames.input = [] := List.drop_length
    have hagain : wsUnwrapLoop u = wsUnwrapLoop (w.take w.frames.input.length) :=
      loop_of_again _ hturn
    have hdone : wsUnwrapLoop (w.take w.frames.input.length) =
        .ok (w.take w.frames.input.length, true) := by
      refine loop_of_done _ ?_
      unfold wsUnwrapTurn
      rw [hnil]
      rfl
    obtain ⟨rfl, -⟩ := Prod.mk.inj (Except.ok.inj ((hagain.trans hdone).symm.trans hloop))
    refine ⟨hnil, ?_⟩
    simp only [WsUnwrap.take, List.length_append, wsUnmaskData_length, List.take_length]

/-- A turn that stops between two frames. -/
theorem wsUnwrapLoop_stops {w : WsIn} {v : WsUnwrap} (hzero : u.frames.remaining = 0)
    (hin : u.frames.input.length ≠ 0) (hparse : wsParseFrameHeader u.frames = .ok (w, 0))
    (hloop : wsUnwrapLoop u = .ok (v, true)) : v = { u with frames := w } := by
  have hdone : wsUnwrapLoop u = .ok ({ u with frames := w }, true) := by
    refine loop_of_done _ ?_
    rw [wsUnwrapTurn_between hzero hin, hparse]
    rfl
  exact (Prod.mk.inj (Except.ok.inj (hloop.symm.trans hdone))).1

/-- **Between two frames** the loop unmasks and leaves what it is said to. -/
theorem wsUnwrapLoop_unwraps {input : Bytes} {p r : ℕ} {v : WsUnwrap}
    (h : Unwraps input p r) (hinput : u.frames.input = input) (hzero : u.frames.remaining = 0)
    (hloop : wsUnwrapLoop u = .ok (v, true)) :
    v.unmasked.length = u.unmasked.length + p ∧ v.frames.input.length = r := by
  have hempty {w : WsUnwrap} (hnil : w.frames.input = []) (hloop : wsUnwrapLoop w = .ok (v, true)) :
      v = w := by
    have hdone : wsUnwrapLoop w = .ok (w, true) := by
      refine loop_of_done _ ?_
      unfold wsUnwrapTurn
      rw [hnil]
      rfl
    exact (Prod.mk.inj (Except.ok.inj (hloop.symm.trans hdone))).1
  induction h generalizing u with
  | nil =>
    obtain rfl := hempty hinput hloop
    exact ⟨rfl, by rw [hinput]; rfl⟩
  | @waits tail h =>
    by_cases hnil : tail = []
    · obtain rfl := hempty (hinput.trans hnil) hloop
      exact ⟨rfl, by rw [hinput]⟩
    · obtain ⟨w, hparse, hw, -⟩ := h u.frames hinput
      have hin : u.frames.input.length ≠ 0 := by
        rw [hinput]
        exact fun h0 => hnil (List.length_eq_zero_iff.mp h0)
      rw [wsUnwrapLoop_stops hzero hin hparse hloop]
      exact ⟨rfl, congrArg List.length hw⟩
  | @refused tail h p r =>
    have hin : u.frames.input.length ≠ 0 := by
      intro h0
      have hnil : wsParseFrameHeader u.frames = .ok (u.frames, 0) := by
        unfold wsParseFrameHeader
        rw [if_pos (by omega)]
      rcases h u.frames hinput with ⟨w, hw⟩ | ⟨a, ha⟩
      · exact absurd (Prod.mk.inj (Except.ok.inj (hw.symm.trans hnil))).2 (by decide)
      · exact nomatch ha.symm.trans hnil
    rcases h u.frames hinput with ⟨w, hparse⟩ | ⟨a, hparse⟩
    · have hdone : wsUnwrapLoop u = .ok ({ u with frames := w }, false) := by
        refine loop_of_done _ ?_
        rw [wsUnwrapTurn_between hzero hin, hparse]
        rfl
      exact nomatch (Prod.mk.inj (Except.ok.inj (hloop.symm.trans hdone))).2
    · have hdone : wsUnwrapLoop u = .error a := by
        refine loop_of_done _ ?_
        rw [wsUnwrapTurn_between hzero hin, hparse]
      exact nomatch hloop.symm.trans hdone
  | @stops s hserved hreturns rest =>
    have hin : u.frames.input.length ≠ 0 := by
      rw [hinput, List.length_append]
      have := List.length_pos_iff.mpr s.encode_ne_nil
      omega
    rcases wsParseFrameHeader_served u.frames hinput hserved with
      ⟨-, w, hparse, hw, -⟩ | ⟨hdata, hparse⟩
    · rw [wsUnwrapLoop_stops hzero hin hparse hloop]
      exact ⟨rfl, congrArg List.length hw⟩
    · have hpayload : s.payload = [] := hreturns.resolve_left hdata.2 |>.2
      rw [hpayload] at hparse
      rw [wsUnwrapLoop_stops hzero hin hparse hloop]
      exact ⟨rfl, rfl⟩
  | @part f tail fut h hfut hpasses hlen =>
    have hbytes : u.frames.input ++ fut = f.encode ++ [] := by rw [hinput, h, List.append_nil]
    have hturn := wsUnwrapTurn_passes hpasses hzero hbytes (by rw [hinput]; exact hlen)
    have hshort : (u.frames.input.drop f.headerLen).length < f.payload.length := by
      have hwhole := congrArg List.length h
      have hpos := List.length_pos_iff.mpr hfut
      rw [List.length_append, f.encode_length] at hwhole
      rw [hinput, List.length_drop]
      omega
    obtain ⟨hnil, hunmasked⟩ := wsUnwrapLoop_part hturn hshort hloop
    refine ⟨hunmasked.trans ?_, by rw [hnil]; rfl⟩
    show u.unmasked.length + (u.frames.input.drop f.headerLen).length = _
    rw [hinput, List.length_drop]
  | @frame f rest p r hpasses h ih =>
    obtain ⟨-, hpos⟩ := hpasses.data
    have hbytes : u.frames.input ++ [] = f.encode ++ rest := by rw [hinput, List.append_nil]
    have hbehind : u.frames.input.drop f.headerLen =
        wsUnmaskData f.mask 0 f.payload ++ rest := by
      rw [hinput, ClientFrame.encode, List.append_assoc, List.drop_left' f.header_length]
    have hturn := wsUnwrapTurn_passes hpasses hzero hbytes (by
      rw [hinput, List.length_append, f.encode_length]
      omega)
    obtain ⟨w, heq, hzero', hw, hunmasked⟩ := wsUnwrapLoop_whole hturn hpos (by
      show f.payload.length ≤ (u.frames.input.drop f.headerLen).length
      rw [hbehind, List.length_append, wsUnmaskData_length]
      omega)
    have hrest : w.frames.input = rest := by
      rw [hw]
      show (u.frames.input.drop f.headerLen).drop f.payload.length = rest
      rw [hbehind, List.drop_left' (wsUnmaskData_length _ _ _)]
    rw [heq] at hloop
    obtain ⟨hlen, hleft⟩ := ih hrest hzero' hloop
    refine ⟨?_, hleft⟩
    rw [hlen, hunmasked]
    show u.unmasked.length + f.payload.length + p = _
    omega

/-- **From any place in a frame.** -/
theorem wsUnwrapLoop_counts {p r : ℕ} {v : WsUnwrap}
    (h : Unwraps (u.frames.input.drop u.frames.remaining) p r)
    (hloop : wsUnwrapLoop u = .ok (v, true)) :
    v.unmasked.length = u.unmasked.length + (min u.frames.remaining u.frames.input.length + p) ∧
      v.frames.input.length = r := by
  by_cases hzero : u.frames.remaining = 0
  · rw [hzero, List.drop_zero] at h
    rw [hzero, Nat.zero_min, Nat.zero_add]
    exact wsUnwrapLoop_unwraps h rfl hzero hloop
  · have hturn : wsUnwrapTurn u = wsTakeTurn u := by
      unfold wsUnwrapTurn
      by_cases hin : u.frames.input.length = 0
      · unfold wsTakeTurn
        rw [if_pos hin, hin, Nat.zero_min]
        rfl
      · rw [if_neg hin, if_neg hzero]
    by_cases hlen : u.frames.remaining ≤ u.frames.input.length
    · obtain ⟨w, heq, hzero', hw, hunmasked⟩ := wsUnwrapLoop_whole hturn hzero hlen
      rw [heq] at hloop
      obtain ⟨hcount, hleft⟩ := wsUnwrapLoop_unwraps h hw hzero' hloop
      refine ⟨?_, hleft⟩
      rw [hcount, hunmasked]
      omega
    · obtain ⟨hnil, hunmasked⟩ := wsUnwrapLoop_part hturn (by omega) hloop
      rw [List.drop_eq_nil_of_le (by omega)] at h
      have hdone : wsUnwrapLoop ⟨⟨[], 0, [], 0⟩, []⟩ = .ok (⟨⟨[], 0, [], 0⟩, []⟩, true) :=
        loop_of_done _ rfl
      obtain ⟨hp, hr⟩ := wsUnwrapLoop_unwraps h rfl rfl hdone
      simp only [List.length_nil, Nat.zero_add] at hp hr
      rw [hunmasked, hnil, ← hp, ← hr]
      exact ⟨by omega, rfl⟩

/-! ### What stands behind it -/

section Behind

variable {W : Type*}

/-- Bytes are taken from the front of `in`, and nothing that belongs to frames is touched. -/
structure TakesFront (c d : Conn W) : Prop where
  inp : ∃ k, d.inp = c.inp.drop k
  wsState : d.wsState = c.wsState
  wsFrameRemaining : d.wsFrameRemaining = c.wsFrameRemaining
  wsMask : d.wsMask = c.wsMask
  wsMaskOffset : d.wsMaskOffset = c.wsMaskOffset
  transportMode : d.transportMode = c.transportMode
  inPacketNum : d.rpc.inPacketNum = c.rpc.inPacketNum

namespace TakesFront

variable {a b c : Conn W}

theorem refl (c : Conn W) : TakesFront c c := ⟨⟨0, rfl⟩, rfl, rfl, rfl, rfl, rfl, rfl⟩

theorem trans (h : TakesFront a b) (h' : TakesFront b c) : TakesFront a c where
  inp := by
    obtain ⟨k, hk⟩ := h.inp
    obtain ⟨j, hj⟩ := h'.inp
    exact ⟨k + j, by rw [hj, hk, List.drop_drop]⟩
  wsState := h'.wsState.trans h.wsState
  wsFrameRemaining := h'.wsFrameRemaining.trans h.wsFrameRemaining
  wsMask := h'.wsMask.trans h.wsMask
  wsMaskOffset := h'.wsMaskOffset.trans h.wsMaskOffset
  transportMode := h'.transportMode.trans h.transportMode
  inPacketNum := h'.inPacketNum.trans h.inPacketNum

theorem failed (h : TakesFront a b) (err : ℤ) : TakesFront a (failConnection b err) :=
  ⟨h.inp, h.wsState, h.wsFrameRemaining, h.wsMask, h.wsMaskOffset, h.transportMode, h.inPacketNum⟩

end TakesFront

/-- A stage takes bytes from the front; where it is passed the connection keeps its type. -/
abbrev TakesStage (c : Conn W) (x : Except (ParseExit W) (Conn W)) : Prop :=
  Ends (fun d => TakesFront c d ∧ d.type = c.type) (ExitFrame TakesFront c) x

theorem TakesStage.after {a b : Conn W} {x : Except (ParseExit W) (Conn W)} (h : TakesFront a b)
    (htype : b.type = a.type) (hx : TakesStage b x) : TakesStage a x := by
  refine hx.mono (fun d hd => ⟨h.trans hd.1, hd.2.trans htype⟩) ?_
  rintro (⟨d, res⟩ | _) hd
  · exact h.trans hd
  · trivial

theorem TakesStage.bind {c : Conn W} {x : Except (ParseExit W) (Conn W)} {f : Stage W}
    (hx : TakesStage c x) (hf : ∀ c', TakesStage c' (f c')) : TakesStage c (x.bind f) :=
  Ends.bind hx fun c' hc' => TakesStage.after hc'.1 hc'.2 (hf c')

theorem needInput_takes (c : Conn W) : TakesStage c (needInput c) := by
  unfold needInput
  split_ifs
  · exact TakesFront.refl c
  · exact ⟨.refl c, rfl⟩

theorem parseFlags_takes (c : Conn W) : TakesStage c (parseFlags c) := by
  unfold parseFlags
  dsimp only
  by_cases hflags : c.cError = true ∨ c.cStopParse = true
  · rw [if_pos hflags]
    exact ⟨⟨0, rfl⟩, rfl, rfl, rfl, rfl, rfl, rfl⟩
  · rw [if_neg hflags]
    exact ⟨⟨⟨0, rfl⟩, rfl, rfl, rfl, rfl, rfl, rfl⟩, rfl⟩

theorem parseLength_takes (c : Conn W) : TakesStage c (parseLength c) := by
  unfold parseLength
  split_ifs
  · exact TakesFront.refl c
  · exact TakesFront.refl c
  · trivial
  · exact ⟨.refl c, rfl⟩

theorem firstTlsPacket_takes (c : Conn W) : TakesStage c (firstTlsPacket c) := by
  have hdrop (left : ℤ) : TakesFront c { c.skipData 11 with leftTlsPacketLength := left } :=
    ⟨⟨11, rfl⟩, rfl, rfl, rfl, rfl, rfl, rfl⟩
  unfold firstTlsPacket
  split_ifs
  · exact TakesFront.refl c
  · exact (TakesFront.refl c).failed _
  · dsimp only
    split_ifs
    · exact TakesFront.refl c
    · exact (hdrop _).failed _
    · exact ⟨hdrop _, rfl⟩

variable (env : ExtServerEnv W)

theorem dispatchHook_takes (c : Conn W) : TakesStage c (dispatchHook env c) := by
  obtain ⟨timer, world, hdrop⟩ := type3Drop_frame env.toDispatchEnv c
  obtain ⟨timer', world', hdrop'⟩ := type3Drop_frame env.toDispatchEnv
    (c.record (.sessionHeader (c.inp.take 4)))
  unfold dispatchHook
  rcases type3DispatchOnCryptoInit_cases env.toDispatchEnv c with
    ⟨-, heq⟩ | ⟨-, -, heq⟩ | ⟨-, -, ⟨r, -, heq⟩ | ⟨-, heq⟩ | ⟨-, heq⟩⟩
  · rw [heq, hdrop]
    exact ⟨⟨0, rfl⟩, rfl, rfl, rfl, rfl, rfl, rfl⟩
  · rw [heq]
    exact ⟨.refl c, rfl⟩
  · rw [heq, hdrop']
    exact ⟨⟨0, rfl⟩, rfl, rfl, rfl, rfl, rfl, rfl⟩
  · rw [heq]
    exact ⟨⟨4, rfl⟩, rfl, rfl, rfl, rfl, rfl, rfl⟩
  · rw [heq]
    exact ⟨⟨⟨4, rfl⟩, rfl, rfl, rfl, rfl, rfl, rfl⟩, rfl⟩

theorem proxyHeader_takes (c : Conn W) : TakesStage c (proxyHeader env c) := by
  unfold proxyHeader
  by_cases hproxy : c.cProxyProtocol = true
  · rw [if_pos hproxy]
    cases env.proxyProtocolParse c.inp with
    | needMore => exact TakesFront.refl c
    | malformed => exact (TakesFront.refl c).failed _
    | header consumed addr =>
      have hdrop : TakesFront c
          { (c.record (.proxyHeader (c.inp.take consumed))).skipData consumed with
            cProxyProtocol := false
            remote := addr.getD c.remote } := ⟨⟨consumed, rfl⟩, rfl, rfl, rfl, rfl, rfl, rfl⟩
      dsimp only
      split_ifs
      · exact hdrop.failed _
      · exact TakesStage.after hdrop rfl (parseLength_takes _)
  · rw [if_neg hproxy]
    exact ⟨.refl c, rfl⟩

theorem proxyConnection_takes (env : OutboundEnv W) (c : Conn W) (info : DomainInfo) :
    TakesFront c (proxyConnection env c info) := by
  have hrelay (d : Conn W) (e : Outbound) : TakesFront d (relayTo d e) :=
    ⟨⟨d.inp.length, List.drop_length.symm⟩, rfl, rfl, rfl, rfl, rfl, rfl⟩
  unfold proxyConnection
  dsimp only
  split_ifs
  · exact ⟨⟨0, rfl⟩, rfl, rfl, rfl, rfl, rfl, rfl⟩
  · exact ⟨⟨0, rfl⟩, rfl, rfl, rfl, rfl, rfl, rfl⟩
  · exact ⟨⟨0, rfl⟩, rfl, rfl, rfl, rfl, rfl, rfl⟩
  · refine TakesFront.trans ?_ (hrelay _ _)
    exact ⟨⟨0, rfl⟩, rfl, rfl, rfl, rfl, rfl, rfl⟩

theorem fakeTls_takes (c : Conn W) : TakesStage c (fakeTls env c) := by
  have hhello (dflt : DomainInfo) : ExitFrame TakesFront c (clientHello env dflt c) := by
    have hrecord (e : StageEvent) (world : W) : TakesFront c { c.record e with world := world } :=
      ⟨⟨0, rfl⟩, rfl, rfl, rfl, rfl, rfl, rfl⟩
    unfold clientHello
    dsimp only
    split_ifs
    · exact TakesFront.refl c
    · cases env.getSniDomainInfo (c.inp.take 4096) with
      | none => exact (hrecord _ c.world).trans (proxyConnection_takes _ _ _)
      | some info =>
        dsimp only
        split
        · exact (hrecord _ _).trans (proxyConnection_takes _ _ _)
        · exact ⟨⟨c.inp.length, rfl⟩, rfl, rfl, rfl, rfl, rfl, rfl⟩
  unfold fakeTls
  by_cases htls : c.cIsTls = true
  · rw [if_pos htls]
    exact firstTlsPacket_takes c
  · rw [if_neg htls]
    cases env.defaultDomainInfo with
    | none => exact ⟨.refl c, rfl⟩
    | some dflt =>
      dsimp only
      split_ifs
      · exact hhello dflt
      · exact proxyConnection_takes _ _ _
      · exact ⟨.refl c, rfl⟩

/-- What the code of the header leaves without a cipher has only been taken from. -/
def TakesOrCrypto (c d : Conn W) : Prop := TakesFront c d ∨ d.crypto.isSome = true

/-- A header that is accepted leaves an authenticated client. -/
theorem acceptObfs2_crypto (pr : Obfs2ParseResult) (slot : ℕ) {c : Conn W}
    (htype : c.type = .rpcExtServer) (hws : c.wsState ≠ .handshake) :
    Ends Authenticated (ExitFrame TakesOrCrypto c) (acceptObfs2 env pr slot c) := by
  have hexit : ∀ d res, acceptObfs2 env pr slot c = .error (.ret d res) →
      d.crypto.isSome = true := by
    intro d res h
    cases hdec : cpuTcpAesCryptoCtr128DecryptInput (startCrypto env c pr) with
    | error a =>
      unfold acceptObfs2 at h
      rw [hdec] at h
      exact nomatch h
    | ok p =>
      obtain ⟨e, r⟩ := p
      have hcrypto : e.crypto.isSome = true :=
        (cpuTcpAesCryptoCtr128DecryptInput_frame hdec).crypto rfl
      have hkeeps := (acceptObfs2_goesOn env hdec (decryptInput_nonneg hdec) slot).error h
      exact hkeeps.1.crypto ▸ hcrypto
  cases hres : acceptObfs2 env pr slot c with
  | ok d => exact acceptObfs2_authenticated env htype hws hres
  | error exit =>
    cases exit with
    | ret d res => exact Or.inr (hexit d res hres)
    | abort a => trivial

theorem obfs2Header_takes {c : Conn W} (htype : c.type = .rpcExtServer)
    (hws : c.wsState ≠ .handshake) :
    Ends Authenticated (ExitFrame TakesOrCrypto c) (obfs2Header env c) := by
  unfold obfs2Header
  by_cases hlen : c.inp.length < 64
  · rw [if_pos hlen]
    exact Or.inl (TakesFront.refl c)
  · rw [if_neg hlen]
    have hrecord (e : StageEvent) : TakesFront c (c.record e) :=
      ⟨⟨0, rfl⟩, rfl, rfl, rfl, rfl, rfl, rfl⟩
    have haccept (pr : Obfs2ParseResult) (slot : ℕ) (e : StageEvent) :
        Ends Authenticated (ExitFrame TakesOrCrypto c)
          (acceptObfs2 env pr slot (c.record e)) := by
      have hends : Ends Authenticated (ExitFrame TakesOrCrypto (c.record e))
          (acceptObfs2 env pr slot (c.record e)) := acceptObfs2_crypto env pr slot htype hws
      refine hends.mono (fun _ hd => hd) ?_
      rintro (⟨d, res⟩ | a) hd
      · exact hd.imp_left (hrecord e).trans
      · trivial
    dsimp only
    split
    · exact Or.inl ⟨⟨0, rfl⟩, rfl, rfl, rfl, rfl, rfl, rfl⟩
    · split
      · split_ifs
        · exact Or.inl ((hrecord _).trans (proxyConnection_takes _ _ _))
        · exact haccept _ _ _
      · exact haccept _ _ _

theorem ExitFrame.after {c d : Conn W} {exit : ParseExit W} (h : ExitFrame TakesFront d exit)
    (hd : TakesFront c d) : ExitFrame TakesOrCrypto c exit := by
  cases exit with
  | ret e res => exact Or.inl (hd.trans h)
  | abort a => trivial

theorem ExitFrame.orAfter {c d : Conn W} {exit : ParseExit W}
    (h : ExitFrame TakesOrCrypto d exit) (hd : TakesFront c d) : ExitFrame TakesOrCrypto c exit := by
  cases exit with
  | ret e res => exact h.imp_left hd.trans
  | abort a => trivial

/-- What follows the hook in a turn of `parse_execute`. -/
theorem parseSession_takes {c : Conn W} (htype : c.type = .rpcExtServer)
    (hws : c.wsState ≠ .handshake) (hnum : c.rpc.inPacketNum = -3) :
    Ends Authenticated (ExitFrame TakesOrCrypto c) (parseSession env c) := by
  unfold parseSession
  have hflags := TakesStage.bind (parseFlags_takes c) parseLength_takes
  refine Ends.bind (hflags.mono (fun _ he => he) fun exit h => ExitFrame.after h (.refl c))
    fun e ⟨he, hetype⟩ => ?_
  rw [if_pos (he.inPacketNum.trans hnum), handshake]
  have htls := TakesStage.bind (proxyHeader_takes env e) (fakeTls_takes env)
  refine Ends.bind (htls.mono (fun _ hf => hf) fun exit h => ExitFrame.after h he)
    fun f ⟨hf, hftype⟩ => ?_
  have hall := he.trans hf
  have hheader := obfs2Header_takes env (c := f) ((hftype.trans hetype).trans htype)
    (by rw [hall.wsState]; exact hws)
  exact hheader.mono (fun _ hg => hg) fun exit h => ExitFrame.orAfter h hall

/-- **What follows the unwrapping** in a turn of `parse_execute`: the client is authenticated, or
bytes have been taken from the front. -/
theorem behindUnwrap_takes {c : Conn W} (htype : c.type = .rpcExtServer)
    (hws : c.wsState ≠ .handshake) (hnum : c.rpc.inPacketNum = -3) :
    Ends Authenticated (ExitFrame TakesOrCrypto c)
      (((needInput c).bind (dispatchHook env)).bind (parseSession env)) := by
  have hhook := TakesStage.bind (needInput_takes c) (dispatchHook_takes env)
  refine Ends.bind (hhook.mono (fun _ hd => hd) fun exit h => ExitFrame.after h (.refl c))
    fun d ⟨hd, hdtype⟩ => ?_
  have hsession := parseSession_takes env (c := d) (hdtype.trans htype)
    (by rw [hd.wsState]; exact hws) (hd.inPacketNum.trans hnum)
  exact hsession.mono (fun _ hg => hg) fun exit h => ExitFrame.orAfter h hd

/-- What a call leaves, from what its first turn leaves. -/
theorem takes_of_stages {b c d : Conn W} {res : ℤ} (htype : c.type = .rpcExtServer)
    (hends : Ends Authenticated (ExitFrame TakesOrCrypto b) (parseStages env c))
    (hcall : clientParseExecute env c = .ok (d, res)) : TakesOrCrypto b d := by
  have hparse : clientParseExecute env c = tcpRpcsCompactParseExecute env c := by
    unfold clientParseExecute
    rw [htype]
  rw [hparse] at hcall
  cases hst : parseStages env c with
  | error exit =>
    rw [tcpRpcsCompactParseExecute_of_error env hst] at hcall
    cases exit with
    | ret e res' =>
      cases hcall
      exact hends.error hst
    | abort a => exact nomatch hcall
  | ok e =>
    have hauth : Authenticated e := hends.ok hst
    rw [tcpRpcsCompactParseExecute_of_ok env hst,
      ← clientParseExecute_of_authenticated env hauth] at hcall
    obtain ⟨hkeeps, -⟩ := clientParseExecute_keeps env (Or.inl hauth) hcall
    exact Or.inr (hkeeps.crypto ▸ hauth.crypto)

/-- The hook does not touch the flags of the PROXY protocol and of fake TLS. -/
theorem dispatchHook_plain {c d : Conn W} (h : dispatchHook env c = .ok d) :
    d.cProxyProtocol = c.cProxyProtocol ∧ d.cIsTls = c.cIsTls := by
  unfold dispatchHook at h
  rcases type3DispatchOnCryptoInit_cases env.toDispatchEnv c with
    ⟨-, heq⟩ | ⟨-, -, heq⟩ | ⟨-, -, ⟨r, -, heq⟩ | ⟨-, heq⟩ | ⟨-, heq⟩⟩ <;>
    rw [heq] at h <;> cases h <;> exact ⟨rfl, rfl⟩

/-- Where no PROXY header and no fake TLS is awaited, nothing behind the hook is taken in front of
the obfuscated2 header. -/
theorem inp_of_plain {b c d : Conn W} (hproxy : b.cProxyProtocol = false)
    (htls : b.cIsTls = false) (hflags : (parseFlags b).bind parseLength = .ok c)
    (h : (proxyHeader env c).bind (fakeTls env) = .ok d) : d.inp = b.inp := by
  obtain ⟨e, hparse, hlength⟩ := bind_ok_iff.mp hflags
  rw [parseLength_ok hlength] at h
  unfold parseFlags at hparse
  dsimp only at hparse
  split_ifs at hparse <;> cases hparse
  all_goals
    obtain ⟨g, hheader, hfake⟩ := bind_ok_iff.mp h
    unfold proxyHeader at hheader
    rw [if_neg (by rw [hproxy]; exact Bool.false_ne_true)] at hheader
    cases hheader
    unfold fakeTls at hfake
    rw [if_neg (by rw [htls]; exact Bool.false_ne_true)] at hfake
    cases hdflt : env.defaultDomainInfo with
    | none =>
      rw [hdflt] at hfake
      cases hfake
      rfl
    | some dflt =>
      rw [hdflt] at hfake
      dsimp only at hfake
      split_ifs at hfake
      cases hfake
      rfl

/-- **A client of which the header is awaited**, in frames. -/
structure AwaitsBlock (c : Conn W) : Prop where
  type : c.type = .rpcExtServer
  live : c.cError = false
  crypto : c.crypto = none
  wsState : c.wsState = .active
  transportMode : c.transportMode ≠ .httpStream
  inPacketNum : c.rpc.inPacketNum = -3

/-- The place of the loop in the frames at hand. -/
def Conn.unwrapping (c : Conn W) (unmasked : Bytes) : WsUnwrap :=
  ⟨⟨c.inp, c.wsFrameRemaining, c.wsMask, c.wsMaskOffset⟩, unmasked⟩

/-- What the loop puts back into `in`. -/
def Conn.unwrapped (c : Conn W) (v : WsUnwrap) : Conn W :=
  { c with
    inp := v.unmasked ++ v.frames.input
    wsFrameRemaining := v.frames.remaining
    wsMask := v.frames.mask
    wsMaskOffset := v.frames.maskOffset }

theorem wsPreCrypto_of_alive {c : Conn W} {v : WsUnwrap}
    (h : wsUnwrapLoop (c.unwrapping []) = .ok (v, true)) : wsPreCrypto c = .ok (c.unwrapped v) := by
  unfold Conn.unwrapping at h
  rw [wsPreCrypto, h]
  rfl

theorem wsPreCrypto_unwrapped {c c' : Conn W} (h : wsPreCrypto c = .ok c') :
    ∃ v, wsUnwrapLoop (c.unwrapping []) = .ok (v, true) ∧ c' = c.unwrapped v := by
  unfold wsPreCrypto at h
  cases hloop : wsUnwrapLoop ⟨⟨c.inp, c.wsFrameRemaining, c.wsMask, c.wsMaskOffset⟩, []⟩ with
  | error a =>
    rw [hloop] at h
    exact nomatch h
  | ok p =>
    obtain ⟨v, alive⟩ := p
    rw [hloop] at h
    cases alive with
    | false => exact nomatch h
    | true => exact ⟨v, hloop, (Except.ok.inj h).symm⟩

/-- A turn of `parse_execute` begins with the unwrapping. -/
theorem AwaitsBlock.stages {c : Conn W} (h : AwaitsBlock c) :
    parseStages env c = (wsPreCrypto c).bind fun c' =>
      ((needInput c').bind (dispatchHook env)).bind (parseSession env) := by
  have hdetect : detect env.acceptKey c = .ok c := detect_of_ne (by rw [h.wsState]; decide)
  have hpre : preCrypto env c = ((wsPreCrypto c).bind needInput).bind (dispatchHook env) :=
    if_pos ⟨h.wsState, by rw [h.crypto]; rfl⟩
  unfold parseStages
  rw [hdetect]
  show (preCrypto env c).bind (parseSession env) = _
  rw [hpre]
  cases wsPreCrypto c with
  | error exit => rfl
  | ok c' => rfl

/-- **A call.**  Where there is no cipher in the end, bytes have been taken from the front of what
the unwrapping has put into `in`. -/
theorem AwaitsBlock.call {c c' d : Conn W} {res : ℤ} (h : AwaitsBlock c)
    (hunwrap : wsPreCrypto c = .ok c') (hcall : clientParseExecute env c = .ok (d, res)) :
    TakesOrCrypto c' d := by
  have hstages := h.stages env
  rw [hunwrap] at hstages
  obtain ⟨v, -, hc'⟩ := wsPreCrypto_unwrapped hunwrap
  have hends := behindUnwrap_takes env (c := c') (by rw [hc']; exact h.type)
    (by rw [hc']; show c.wsState ≠ .handshake; rw [h.wsState]; decide)
    (by rw [hc']; exact h.inPacketNum)
  refine takes_of_stages env h.type ?_ hcall
  rw [hstages]
  exact hends

/-- **What the code of the header looks at** stands in `in` behind the four bytes of the hook,
where no PROXY header and no fake TLS is awaited. -/
theorem AwaitsBlock.block {c c' d : Conn W} (h : AwaitsBlock c) (hunwrap : wsPreCrypto c = .ok c')
    (hreach : ReachesBlock env c d) : ∃ k, d.inp = c'.inp.drop k ∧
      (c.cProxyProtocol = false → c.cIsTls = false → 64 ≤ d.inp.length → k = 4) := by
  obtain ⟨c1, c2, c3, hdetect, hpre, hflags, -, htls⟩ := hreach
  obtain rfl : c = c1 := by
    rw [detect_of_ne (by rw [h.wsState]; decide)] at hdetect
    exact Except.ok.inj hdetect
  obtain ⟨v, -, hc'⟩ := wsPreCrypto_unwrapped hunwrap
  rw [preCrypto, if_pos ⟨h.wsState, by rw [h.crypto]; rfl⟩, hunwrap] at hpre
  obtain ⟨e, hinput, hhook⟩ := bind_ok_iff.mp hpre
  rw [needInput_ok hinput] at hhook
  have hfront := front_of_stages env hflags htls
  obtain ⟨k, hk⟩ := ((dispatchHook_ok env hhook).1.trans hfront).inp
  by_cases hplain : c.cProxyProtocol = false ∧ c.cIsTls = false
  · obtain ⟨hsameProxy, hsameTls⟩ := dispatchHook_plain env hhook
    have hinp : d.inp = c2.inp := by
      refine inp_of_plain env ?_ ?_ hflags htls
      · rw [hsameProxy, hc']
        exact hplain.1
      · rw [hsameTls, hc']
        exact hplain.2
    rcases (dispatchHook_ok env hhook).2 with hfour | hshort
    · exact ⟨4, hinp.trans hfour, fun _ _ _ => rfl⟩
    · refine ⟨k, hk, fun _ _ hlen => ?_⟩
      rw [hinp] at hlen
      omega
  · exact ⟨k, hk, fun hproxy htls => absurd ⟨hproxy, htls⟩ hplain⟩

end Behind

/-! ### Reads and calls -/

section Runs

variable {W : Type*} (env : ExtServerEnv W)

/-- A connection between two calls of `parse_execute`.  `taken` has been taken from what the
unwrapping has put into `in`.  `plain` is what the last call has left of the payload in `in`, and
less than nothing where framed bytes have been taken.  A run is `ended` with the cipher, and with
the connection. -/
structure Unwrapping (W : Type*) where
  conn : Conn W
  taken : Bytes
  plain : ℤ
  ended : Bool

/-- Bytes arrive, or `parse_execute` is called. -/
inductive UnwrapEvent
  | read (bytes : Bytes)
  | call
  deriving DecidableEq, Repr

/-- The bytes that arrive. -/
def arrivals (events : List UnwrapEvent) : Bytes :=
  events.flatMap fun
    | .read bytes => bytes
    | .call => []

/-- The payload that the unwrapping puts in front of what is left of the frames. -/
def unmaskedCount (c : Conn W) : ℕ :=
  match wsUnwrapLoop (c.unwrapping []) with
  | .ok (v, _) => v.unmasked.length
  | .error _ => 0

/-- The state behind a call of which the unwrapping has left `c'`, and the whole has left `d`. -/
def Unwrapping.after (x : Unwrapping W) (c' d : Conn W) (res : ℤ) : Unwrapping W where
  conn := d
  taken := x.taken ++ c'.inp.take (c'.inp.length - d.inp.length)
  plain := unmaskedCount x.conn - (c'.inp.length - d.inp.length : ℕ)
  ended := d.cError || d.crypto.isSome || decide (d.type ≠ .rpcExtServer) || decide (res < 0)

/-- One event.  The reader calls `parse_execute` when `skip_bytes` lets it, which `parse_execute`
does not look at: here it is called at any time, and any number of times. -/
def unwrapStep (x : Unwrapping W) (e : UnwrapEvent) : Unwrapping W :=
  if x.ended then x
  else
    match e with
    | .read bytes => { x with conn := readerFill x.conn [bytes] }
    | .call =>
      match wsPreCrypto x.conn, clientParseExecute env x.conn with
      | .ok c', .ok (d, res) => x.after c' d res
      | _, _ => { x with ended := true }

/-- **The bytes that the hook and the code of the header look at** continue, behind what has been
taken, a prefix of the payload. -/
def LooksAtPayload (payload : Bytes) (x : Unwrapping W) : Prop :=
  ∀ c', wsPreCrypto x.conn = .ok c' →
    (4 ≤ c'.inp.length → x.taken ++ c'.inp.take 4 <+: payload) ∧
      ∀ d, ReachesBlock env x.conn d → 64 ≤ d.inp.length →
        x.taken ++ c'.inp.take (c'.inp.length - d.inp.length) ++ d.inp.take 64 <+: payload

/-- **Only frames are at hand, and of these the payload is looked at**: nothing that has been
unmasked is left; and all that is put back is payload, or else, where no PROXY header and no fake
TLS is awaited, the four bytes of the hook are payload or have to be waited for, and so are the 64
bytes of the header behind them. -/
def FramesOnly (x : Unwrapping W) : Prop :=
  x.plain = 0 ∧ ∃ p r, Unwraps (x.conn.inp.drop x.conn.wsFrameRemaining) p r ∧
    (r = 0 ∨ x.conn.cProxyProtocol = false ∧ x.conn.cIsTls = false ∧
      (min x.conn.wsFrameRemaining x.conn.inp.length + p + r < 4 ∨
        4 ≤ min x.conn.wsFrameRemaining x.conn.inp.length + p ∧
            min x.conn.wsFrameRemaining x.conn.inp.length + p + r < 68 ∨
          68 ≤ min x.conn.wsFrameRemaining x.conn.inp.length + p))

/-- **The invariant of such a run**, while nothing that has been unmasked is left: what has been
taken is followed by the payload of the frames at hand and of those to come. -/
structure AmongFrames (payload fut : Bytes) (x : Unwrapping W) : Prop where
  awaits : AwaitsBlock x.conn
  place : ∃ whole lead frames, x.taken ++ whole = payload ∧
    UnwrapPlace whole fut lead frames (x.conn.unwrapping [])

variable {env} {payload fut : Bytes} {x : Unwrapping W}

theorem AmongFrames.read {bytes : Bytes} (h : AmongFrames payload (bytes ++ fut) x) :
    AmongFrames payload fut { x with conn := readerFill x.conn [bytes] } := by
  obtain ⟨whole, lead, frames, hwhole, hplace⟩ := h.place
  have hfill : readerFill x.conn [bytes] = { x.conn with inp := x.conn.inp ++ bytes } := by
    unfold readerFill
    rw [if_neg fun hor => ?_, List.flatten_singleton]
    rcases hor with hcrypto | hmode
    · rw [h.awaits.crypto] at hcrypto
      exact nomatch hcrypto
    · exact h.awaits.transportMode hmode
  rw [hfill]
  constructor
  · exact ⟨h.awaits.type, h.awaits.live, h.awaits.crypto, h.awaits.wsState,
      h.awaits.transportMode, h.awaits.inPacketNum⟩
  · refine ⟨whole, lead, frames, hwhole, hplace.remaining, ?_, hplace.payload⟩
    show x.conn.inp ++ bytes ++ fut = _
    rw [List.append_assoc]
    exact hplace.bytes

/-- What the unwrapping has put back, at a call that meets the condition. -/
theorem AmongFrames.unwrapped {c' : Conn W} (h : AmongFrames payload fut x)
    (hunwrap : wsPreCrypto x.conn = .ok c') :
    ∃ v whole lead frames, wsUnwrapLoop (x.conn.unwrapping []) = .ok (v, true) ∧
      c' = x.conn.unwrapped v ∧ x.taken ++ whole = payload ∧
      UnwrapPlace whole fut lead frames v := by
  obtain ⟨whole, lead, frames, hwhole, hplace⟩ := h.place
  obtain ⟨v, hloop, hc'⟩ := wsPreCrypto_unwrapped hunwrap
  obtain ⟨lead', frames', hv⟩ := wsUnwrapLoop_place hplace hloop
  exact ⟨v, whole, lead', frames', hloop, hc', hwhole, hv⟩

/-- **A call that meets the condition looks at payload.** -/
theorem AmongFrames.looks (h : AmongFrames payload fut x) (honly : FramesOnly x) :
    LooksAtPayload env payload x := by
  intro c' hunwrap
  obtain ⟨v, whole, lead, frames, hloop, hc', hwhole, hv⟩ := h.unwrapped hunwrap
  obtain ⟨-, p, r, hunwraps, hcond⟩ := honly
  obtain ⟨hcount, hleft⟩ := wsUnwrapLoop_counts (u := x.conn.unwrapping []) hunwraps hloop
  change v.unmasked.length = 0 + (min x.conn.wsFrameRemaining x.conn.inp.length + p) at hcount
  have hinp : c'.inp = v.unmasked ++ v.frames.input := congrArg Conn.inp hc'
  have hlen : c'.inp.length = v.unmasked.length + r := by rw [hinp, List.length_append, hleft]
  have hahead : x.taken ++ v.unmasked <+: payload := by
    rw [← hwhole, ← hv.payload]
    exact ⟨lead ++ payloads frames, List.append_assoc _ _ _⟩
  have hfront {n : ℕ} (hn : n ≤ v.unmasked.length) : x.taken ++ c'.inp.take n <+: payload := by
    rw [hinp, List.take_append_of_le_length hn]
    exact ((List.prefix_append_right_inj _).mpr (List.take_prefix n _)).trans hahead
  constructor
  · intro hfour
    exact hfront (by omega)
  · intro d hreach hblock
    obtain ⟨k, hd, hk⟩ := h.awaits.block env hunwrap hreach
    have hdlen : d.inp.length = c'.inp.length - k := by rw [hd, List.length_drop]
    have htake : c'.inp.take (c'.inp.length - d.inp.length) ++ d.inp.take 64 =
        c'.inp.take (k + 64) := by
      rw [show c'.inp.length - d.inp.length = k by omega, hd, List.take_add]
    rw [List.append_assoc, htake]
    refine hfront ?_
    rcases hcond with hnone | ⟨hproxy, htls, hbounds⟩
    · omega
    · have hfour := hk hproxy htls hblock
      omega

/-- **A call after which the run is not over** and nothing that has been unmasked is left. -/
theorem AmongFrames.call {c' d : Conn W} {res : ℤ} (h : AmongFrames payload fut x)
    (hunwrap : wsPreCrypto x.conn = .ok c') (hcall : clientParseExecute env x.conn = .ok (d, res))
    (hgoes : (x.after c' d res).ended = false) (hplain : (x.after c' d res).plain = 0) :
    AmongFrames payload fut (x.after c' d res) := by
  obtain ⟨v, whole, lead, frames, hloop, hc', hwhole, hv⟩ := h.unwrapped hunwrap
  change (d.cError || d.crypto.isSome || decide (d.type ≠ .rpcExtServer) || decide (res < 0)) =
    false at hgoes
  simp only [Bool.or_eq_false_iff, decide_eq_false_iff_not, not_not] at hgoes
  obtain ⟨⟨⟨hlive, hcrypto⟩, htype⟩, -⟩ := hgoes
  have htakes : TakesFront c' d := by
    rcases h.awaits.call env hunwrap hcall with htakes | hsome
    · exact htakes
    · exact nomatch hcrypto.symm.trans hsome
  obtain ⟨k, hk⟩ := htakes.inp
  have hcount : unmaskedCount x.conn = v.unmasked.length := by
    unfold unmaskedCount
    rw [hloop]
  change (unmaskedCount x.conn : ℤ) - (c'.inp.length - d.inp.length : ℕ) = 0 at hplain
  rw [hcount] at hplain
  have hinp : c'.inp = v.unmasked ++ v.frames.input := congrArg Conn.inp hc'
  have hsame : c'.inp.length - d.inp.length = v.unmasked.length := by omega
  have hrest : d.inp = v.frames.input := by
    have hdrop : d.inp = c'.inp.drop v.unmasked.length := by
      have hdlen := congrArg List.length hk
      rw [List.length_drop] at hdlen
      rcases Nat.le_total k c'.inp.length with hle | hle
      · rw [hk, show k = v.unmasked.length by omega]
      · rw [hk, List.drop_eq_nil_of_le hle, List.drop_eq_nil_of_le (by omega)]
    rw [hdrop, hinp, List.drop_left]
  constructor
  · show AwaitsBlock d
    refine ⟨htype, hlive, by simpa using hcrypto, ?_, ?_, ?_⟩
    · rw [htakes.wsState, hc']
      exact h.awaits.wsState
    · rw [htakes.transportMode, hc']
      exact h.awaits.transportMode
    · rw [htakes.inPacketNum, hc']
      exact h.awaits.inPacketNum
  · refine ⟨lead ++ payloads frames, lead, frames, ?_, ?_, ?_, rfl⟩
    · show x.taken ++ c'.inp.take (c'.inp.length - d.inp.length) ++ _ = payload
      rw [hsame, hinp, List.take_left, List.append_assoc, hv.payload, hwhole]
    · show d.wsFrameRemaining = _
      rw [htakes.wsFrameRemaining, hc']
      exact hv.remaining
    · show d.inp ++ fut = wsUnmaskData d.wsMask d.wsMaskOffset lead ++ _
      rw [hrest, htakes.wsMask, htakes.wsMaskOffset, hc']
      exact hv.bytes

variable (env) in
/-- **A run whose calls meet the condition.** -/
theorem unwrap_run (events : List UnwrapEvent) {x : Unwrapping W} {rest : Bytes}
    (hx : x.ended = true ∨ x.plain ≠ 0 ∨ AmongFrames payload (arrivals events ++ rest) x)
    (honly : Along (unwrapStep env) (fun x e => x.ended = false → e = .call → FramesOnly x) x
      events) :
    Along (unwrapStep env) (fun x e => x.ended = false → e = .call → LooksAtPayload env payload x)
      x events := by
  induction events generalizing x with
  | nil => trivial
  | cons e events ih =>
    obtain ⟨hnow, hthen⟩ := honly
    have hamong : x.ended = false → e = .call →
        AmongFrames payload (arrivals (e :: events) ++ rest) x := by
      intro hover he
      rcases hx with hdone | hplain | hamong
      · exact nomatch hdone.symm.trans hover
      · exact absurd (hnow hover he).1 hplain
      · exact hamong
    constructor
    · intro hover he
      exact (hamong hover he).looks (hnow hover he)
    · refine ih ?_ hthen
      by_cases hover : x.ended = true
      · left
        unfold unwrapStep
        rw [if_pos hover]
        exact hover
      have hgoes : x.ended = false := by simpa using hover
      cases e with
      | read bytes =>
        have hstep : unwrapStep env x (.read bytes) =
            { x with conn := readerFill x.conn [bytes] } := if_neg hover
        rw [hstep]
        rcases hx with hdone | hplain | h
        · exact absurd hdone hover
        · exact Or.inr (Or.inl hplain)
        · have hbytes : AmongFrames payload (bytes ++ (arrivals events ++ rest)) x := by
            rw [← List.append_assoc]
            exact h
          exact Or.inr (Or.inr hbytes.read)
      | call =>
        have h := hamong hgoes rfl
        unfold unwrapStep
        rw [if_neg hover]
        dsimp only
        split
        · next c' d res hunwrap hcall =>
          by_cases hend : (x.after c' d res).ended = true
          · exact Or.inl hend
          by_cases hplain : (x.after c' d res).plain = 0
          · exact Or.inr (Or.inr (h.call hunwrap hcall (by simpa using hend) hplain))
          · exact Or.inr (Or.inl hplain)
        · exact Or.inl rfl

/-- **Where only frames are at hand at every call, the hook and the code of the header look at a
prefix of the payload**: for every connection with `ws_state` active and no cipher, from any place
in a frame, every stream of masked frames, and whatever the reads and the calls. -/
theorem wsPreCrypto_looks (env : ExtServerEnv W) (c : Conn W) (hc : AwaitsBlock c) (lead : Bytes)
    (frames : List ClientFrame) (hlead : c.wsFrameRemaining = lead.length)
    (events : List UnwrapEvent)
    (hstream : c.inp ++ arrivals events <+:
      wsUnmaskData c.wsMask c.wsMaskOffset lead ++ encodeFrames frames)
    (honly : Along (unwrapStep env) (fun x e => x.ended = false → e = .call → FramesOnly x)
      ⟨c, [], 0, false⟩ events) :
    Along (unwrapStep env) (fun x e => x.ended = false → e = .call →
      LooksAtPayload env (lead ++ payloads frames) x) ⟨c, [], 0, false⟩ events := by
  obtain ⟨rest, hrest⟩ := hstream
  have hamong : AmongFrames (lead ++ payloads frames) (arrivals events ++ rest)
      ⟨c, [], 0, false⟩ := by
    refine ⟨hc, _, lead, frames, rfl, hlead, ?_, rfl⟩
    show c.inp ++ (arrivals events ++ rest) = _
    rw [← List.append_assoc]
    exact hrest
  exact unwrap_run env events (Or.inr (Or.inr hamong)) honly

/-- A WebSocket client of which nothing has arrived. -/
def sampleUnwrapping : Conn Unit :=
  { sampleAccepted with wsState := .active, transportMode := .ws }

theorem sampleUnwrapping_awaits : AwaitsBlock sampleUnwrapping :=
  ⟨rfl, rfl, rfl, rfl, by decide, rfl⟩

theorem sampleFive_mask : ([1, 2, 3, 4] : Bytes).length = 4 := rfl

/-- A frame with five bytes, and the part of it in front of the third byte of its key. -/
def sampleFive : ClientFrame :=
  ⟨0x82, .short, [1, 2, 3, 4], [7, 8, 9, 10, 11], sampleFive_mask, show (5 : ℕ) < 126 by decide⟩

/-- The frame in two reads, and a call behind them. -/
theorem wsPreCrypto_looks_five :
    Along (unwrapStep sampleServer) (fun x e => x.ended = false → e = .call →
        LooksAtPayload sampleServer ([] ++ payloads [sampleFive]) x)
      ⟨sampleUnwrapping, [], 0, false⟩
      [.read (sampleFive.encode.take 4), .read (sampleFive.encode.drop 4), .call] := by
  refine wsPreCrypto_looks sampleServer sampleUnwrapping sampleUnwrapping_awaits [] [sampleFive] rfl
    _ ⟨[], by decide⟩ ⟨fun _ h => (nomatch h), fun _ h => (nomatch h), fun _ _ => ?_, trivial⟩
  refine ⟨rfl, 5, 0, ?_, Or.inl rfl⟩
  have hpasses : sampleFive.Passes := by
    constructor
    · exact ⟨by decide, by decide, by decide⟩
    · rintro (hcontrol | ⟨-, hnil⟩)
      · exact absurd hcontrol (by decide)
      · exact absurd hnil (by decide)
  exact .frame hpasses .nil

/-- Where the header of the frame arrives in part, the hook takes it for payload. -/
theorem wsPreCrypto_not_looks :
    ¬ ∀ (c : Conn Unit) (lead : Bytes) (frames : List ClientFrame) (events : List UnwrapEvent),
      AwaitsBlock c → c.wsFrameRemaining = lead.length →
      c.inp ++ arrivals events <+:
        wsUnmaskData c.wsMask c.wsMaskOffset lead ++ encodeFrames frames →
      Along (unwrapStep sampleServer) (fun x e => x.ended = false → e = .call →
        LooksAtPayload sampleServer (lead ++ payloads frames) x) ⟨c, [], 0, false⟩ events := by
  intro h
  obtain ⟨-, hcall, -⟩ := h sampleUnwrapping [] [sampleFive]
    [.read (sampleFive.encode.take 4), .call] sampleUnwrapping_awaits rfl
    ⟨sampleFive.encode.drop 4, by decide⟩
  have hunwrap : wsPreCrypto { sampleUnwrapping with inp := sampleFive.encode.take 4 } =
      .ok { sampleUnwrapping with inp := sampleFive.encode.take 4 } := by
    have hloop : wsUnwrapLoop ⟨⟨sampleFive.encode.take 4, 0, sampleUnwrapping.wsMask, 0⟩, []⟩ =
        .ok (⟨⟨sampleFive.encode.take 4, 0, sampleUnwrapping.wsMask, 0⟩, []⟩, true) :=
      loop_of_done _ rfl
    exact wsPreCrypto_of_alive
      (c := { sampleUnwrapping with inp := sampleFive.encode.take 4 }) hloop
  obtain ⟨hfour, -⟩ := hcall rfl rfl _ hunwrap
  exact absurd (hfour (by decide)) (by decide)

end Runs

end Server
end Teleproto3
