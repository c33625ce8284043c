/-
# What a stream of WebSocket frames delivers

The stream of a WebSocket client behind the obfuscated2 header, read by read.  Whatever the reads
are, what has been decrypted is the payload of the data frames that have been consumed, in order:
`FramePlace.decryptInput`.

`ws_parse_frame_header` returns 0 when it needs more, but also when it has consumed a ping, a pong
or a data frame without payload, "to re-parse".  `cpu_tcp_aes_crypto_ctr128_decrypt_input` takes
any 0 for the former and returns, so frames that have arrived behind such a frame are left in
`in_u`, and wait there for bytes that need not come: `wsStream_delivered_iff`.
-/

import Teleproto3.Server.ChunkDelivery
import Teleproto3.Server.ClientFrames

namespace Teleproto3
namespace Server

open Lib Wire

/-! ### Frames at hand -/

/-- A frame as framing with data behind it.  A ping or pong carries no data of the stream. -/
def ClientFrame.part (f : ClientFrame) : FramedData :=
  if f.IsData then ⟨f.header, f.payload⟩ else ⟨f.encode, []⟩

/-- The bytes of frames. -/
def encodeFrames (fs : List ClientFrame) : Bytes := fs.flatMap ClientFrame.encode

@[simp] theorem encodeFrames_nil : encodeFrames [] = [] := rfl

@[simp] theorem encodeFrames_cons (f : ClientFrame) (fs : List ClientFrame) :
    encodeFrames (f :: fs) = f.encode ++ encodeFrames fs := List.flatMap_cons

@[simp] theorem encodeFrames_append (fs gs : List ClientFrame) :
    encodeFrames (fs ++ gs) = encodeFrames fs ++ encodeFrames gs := List.flatMap_append

/-- A complete data frame is in the buffer, with nothing but complete frames in front of it. -/
def HoldsDataFrame (input : Bytes) : Prop :=
  ∃ (fs : List ClientFrame) (f : ClientFrame) (rest : Bytes),
    input = encodeFrames fs ++ (f.encode ++ rest) ∧ f.IsData

/-- A complete data frame stands behind a complete ping, pong or data frame without payload. -/
def DataFrameBehind (input : Bytes) : Prop :=
  ∃ (fs : List ClientFrame) (s : ClientFrame) (rest : Bytes),
    input = encodeFrames fs ++ (s.encode ++ rest) ∧ (∀ g ∈ fs, g.Served) ∧ s.Served ∧
      s.ReturnsZero ∧ HoldsDataFrame rest

theorem not_holdsDataFrame_nil : ¬ HoldsDataFrame [] := by
  rintro ⟨fs, f, rest, h, -⟩
  have hnil := (List.append_eq_nil_iff.mp h.symm).2
  exact f.encode_ne_nil (List.append_eq_nil_iff.mp hnil).1

/-- A buffer that holds a data frame begins with a complete frame. -/
theorem HoldsDataFrame.front {input : Bytes} (h : HoldsDataFrame input) :
    ∃ (g : ClientFrame) (rest : Bytes), input = g.encode ++ rest := by
  obtain ⟨fs, f, rest, rfl, -⟩ := h
  cases fs with
  | nil => exact ⟨f, rest, rfl⟩
  | cons g fs => exact ⟨g, encodeFrames fs ++ (f.encode ++ rest), by simp⟩

/-- With a complete frame in front `ws_parse_frame_header` takes bytes or fails. -/
theorem not_holdsDataFrame_of_waits {w v : WsIn} (h : wsParseFrameHeader w = .ok (v, 0))
    (hinput : v.input = w.input) : ¬ HoldsDataFrame w.input := by
  intro hholds
  obtain ⟨g, rest, hfront⟩ := hholds.front
  have hsize : 0 < g.encode.length := List.length_pos_iff.mpr g.encode_ne_nil
  have hlen : g.encode.length ≤ w.input.length := by
    rw [hfront, List.length_append]
    omega
  have hresult : HeaderResult g w (wsParseFrameHeader w) :=
    wsParseFrameHeader_result (show w.input ++ [] = g.encode ++ rest by rw [List.append_nil, hfront])
  rw [h] at hresult
  generalize hv : (0 : ℤ) = ret at hresult
  generalize hx : (Except.ok (v, ret) : Except Abort (WsIn × ℤ)) = x at hresult
  cases hresult with
  | waits _ _ _ hshort _ => omega
  | skips u _ _ _ hdrop _ =>
    obtain rfl := (Prod.mk.inj (Except.ok.inj hx)).1
    have := congrArg List.length (hdrop.symm.trans hinput)
    rw [List.length_drop] at this
    omega
  | opens _ _ hheader =>
    obtain rfl := (Prod.mk.inj (Except.ok.inj hx)).1
    have hdrop : (w.input.drop g.headerLen).length = w.input.length := congrArg List.length hinput
    have := g.headerLen_le
    rw [List.length_drop] at hdrop
    omega
  | refused => exact absurd (hv.trans (Prod.mk.inj (Except.ok.inj hx)).2) (by decide)
  | aborts => exact nomatch hx

section Place

variable {W : Type*}

/-- **Where a receiver stands in a stream of frames**, `n` bytes of which have arrived and `fut`
have not: it has `lead` ahead of it in its frame and `frames` behind that, and what it has given up
is the data `D` among what has been consumed.  Of `ahead`, which is what was at hand behind its
frame, it has passed complete frames. -/
structure FramePlace (ahead fut : Bytes) (D : ℕ → Bytes) (n : ℕ) (lead : Bytes)
    (frames : List ClientFrame) (d : Conn W) : Prop where
  unciphered : Unciphered d
  live : d.cError = false
  wsState : d.wsState = .active
  remaining : d.wsFrameRemaining = lead.length
  bytes : d.inU ++ fut = wsUnmaskData d.wsMask d.wsMaskOffset lead ++ encodeFrames frames
  held : d.inU.length ≤ n
  among : ∀ m, d.inp ++ Upcoming.among ⟨lead, frames.map ClientFrame.part⟩ m =
    D (n - d.inU.length + m)
  passed : d.inU.length ≤ d.wsFrameRemaining ∨ ∃ done, (∀ g ∈ done, ClientFrame.Served g) ∧
    ahead = encodeFrames done ++ d.inU.drop d.wsFrameRemaining

variable {ahead fut : Bytes} {D : ℕ → Bytes} {n : ℕ} {lead : Bytes} {frames : List ClientFrame}
  {d : Conn W}

/-- What has been given up is what has been consumed. -/
theorem FramePlace.inp (h : FramePlace ahead fut D n lead frames d) :
    d.inp = D (n - d.inU.length) := by
  have h0 := h.among 0
  rwa [Upcoming.among_zero, List.append_nil] at h0

/-- A turn of the loop that looks at frames. -/
theorem FramePlace.turn_eq (h : FramePlace ahead fut D n lead frames d) (hin : d.inU ≠ []) :
    ∃ pos write, decryptTurn d = decryptWsTurn d ⟨⟨fun _ => 0, pos⟩, write⟩ := by
  obtain ⟨pos, write, hcrypto⟩ := h.unciphered
  refine ⟨pos, write, ?_⟩
  have hlen : d.inU.length ≠ 0 := fun h => hin (List.length_eq_zero_iff.mp h)
  simp only [decryptTurn, hcrypto, if_neg hlen, if_pos h.wsState]

/-- The payload at hand of the frame a receiver is in is given up. -/
theorem FramePlace.take (h : FramePlace ahead fut D n lead frames d) (pos : ℕ)
    (write : CtrContext) :
    FramePlace ahead fut D n (lead.drop (min lead.length d.inU.length)) frames
      (decryptWsPayload d ⟨⟨fun _ => 0, pos⟩, write⟩) := by
  have hremaining := h.remaining
  generalize hk : min lead.length d.inU.length = k
  have hmin : min d.wsFrameRemaining d.inU.length = k := by rw [hremaining, hk]
  have hkin : k ≤ d.inU.length := hk ▸ Nat.min_le_right _ _
  have hklead : k ≤ lead.length := hk ▸ Nat.min_le_left _ _
  have hbytes := h.bytes
  have hsplit : wsUnmaskData d.wsMask d.wsMaskOffset lead =
      wsUnmaskData d.wsMask d.wsMaskOffset (lead.take k) ++
        wsUnmaskData d.wsMask (d.wsMaskOffset + k) (lead.drop k) := by
    conv_lhs => rw [← List.take_append_drop k lead, wsUnmaskData_append]
    rw [List.length_take_of_le hklead]
  have hfront : (wsUnmaskData d.wsMask d.wsMaskOffset (lead.take k)).length = k := by
    rw [wsUnmaskData_length, List.length_take_of_le hklead]
  rw [hsplit, List.append_assoc] at hbytes
  have htake : d.inU.take k = wsUnmaskData d.wsMask d.wsMaskOffset (lead.take k) := by
    have := congrArg (List.take k) hbytes
    rwa [List.take_append_of_le_length hkin, List.take_left' hfront] at this
  have hdrop : d.inU.drop k ++ fut =
      wsUnmaskData d.wsMask (d.wsMaskOffset + k) (lead.drop k) ++ encodeFrames frames := by
    have := congrArg (List.drop k) hbytes
    rwa [List.drop_append_of_le_length hkin, List.drop_left' hfront] at this
  unfold decryptWsPayload
  dsimp only
  rw [hmin, htake, wsUnmaskData_masked, xorAt_zero]
  refine ⟨⟨_, write, rfl⟩, h.live, h.wsState, ?_, ?_, ?_, fun m => ?_, ?_⟩
  · show d.wsFrameRemaining - k = (lead.drop k).length
    rw [hremaining, List.length_drop]
  · show d.inU.drop k ++ fut = wsUnmaskData d.wsMask ((d.wsMaskOffset + k) % 4) (lead.drop k) ++ _
    rw [wsUnmaskData_mod, hdrop]
  · show (d.inU.drop k).length ≤ n
    have := h.held
    rw [List.length_drop]
    omega
  · have hmore := h.among (k + m)
    have htakes := Upcoming.take_among hklead (n := k + m) (by omega)
      (frames.map ClientFrame.part)
    have hheld := h.held
    show d.inp ++ lead.take k ++ Upcoming.among ⟨lead.drop k, _⟩ m = D (n - (d.inU.drop k).length + m)
    rw [Nat.add_sub_cancel_left] at htakes
    rw [List.append_assoc, htakes, hmore, List.length_drop,
      show n - d.inU.length + (k + m) = n - (d.inU.length - k) + m by omega]
  · show (d.inU.drop k).length ≤ d.wsFrameRemaining - k ∨ _
    rcases h.passed with hshort | ⟨done, hserved, hahead⟩
    · refine Or.inl ?_
      rw [List.length_drop]
      omega
    · by_cases hshort : d.inU.length ≤ d.wsFrameRemaining
      · refine Or.inl ?_
        rw [List.length_drop]
        omega
      · refine Or.inr ⟨done, hserved, ?_⟩
        show ahead = encodeFrames done ++ (d.inU.drop k).drop (d.wsFrameRemaining - k)
        rw [List.drop_drop, hahead, show k + (d.wsFrameRemaining - k) = d.wsFrameRemaining by omega]

/-- What a turn of the loop comes to. -/
inductive FrameTurn (ahead fut : Bytes) (D : ℕ → Bytes) (n : ℕ) :
    Turn (Conn W) (DecryptExit W) → Prop
  | goes (lead : Bytes) (frames : List ClientFrame) (d' : Conn W)
      (h : FramePlace ahead fut D n lead frames d') : FrameTurn ahead fut D n (.again d')
  | waits (lead : Bytes) (frames : List ClientFrame) (d' : Conn W) (r : ℤ)
      (h : FramePlace ahead fut D n lead frames d')
      (hclear : ¬ DataFrameBehind ahead → ¬ HoldsDataFrame d'.inU) :
      FrameTurn ahead fut D n (.done (.ok (d', r)))
  | failed (d' : Conn W) (r : ℤ) (hinp : d'.inp = D (n - d'.inU.length))
      (herror : d'.cError = true) : FrameTurn ahead fut D n (.done (.ok (d', r)))
  | aborts (a : Abort) : FrameTurn ahead fut D n (.done (.error a))

/-- Behind the header of a data frame its payload is next. -/
theorem among_header {f : ClientFrame} (hdata : f.IsData) (parts : List FramedData) (m : ℕ) :
    Upcoming.among ⟨[], f.part :: parts⟩ (f.headerLen + m) = Upcoming.among ⟨f.payload, parts⟩ m := by
  have hpart : f.part = ⟨f.header, f.payload⟩ := if_pos hdata
  rw [Upcoming.among_nil, hpart, dataAmong]
  dsimp only
  rw [f.header_length, Nat.add_sub_cancel_left]
  rfl

/-- Behind a ping or a pong the next frame is. -/
theorem among_control {f : ClientFrame} (hcontrol : f.IsControl) (parts : List FramedData)
    (m : ℕ) : Upcoming.among ⟨[], f.part :: parts⟩ (f.encode.length + m) =
      Upcoming.among ⟨[], parts⟩ m := by
  have hpart : f.part = ⟨f.encode, []⟩ := if_neg fun h => h.2 hcontrol
  rw [Upcoming.among_nil, Upcoming.among_nil, hpart, dataAmong]
  simp

section Frame

variable {f : ClientFrame}

/-- The bytes ahead of a receiver between two frames. -/
theorem FramePlace.next (h : FramePlace ahead fut D n [] (f :: frames) d) :
    d.inU ++ fut = f.encode ++ encodeFrames frames := by
  rw [← encodeFrames_cons]
  exact h.bytes

/-- A frame that is there as a whole is the front of what is at hand. -/
theorem FramePlace.whole (h : FramePlace ahead fut D n [] (f :: frames) d)
    (hlen : f.encode.length ≤ d.inU.length) :
    d.inU = f.encode ++ d.inU.drop f.encode.length ∧
      d.inU.drop f.encode.length ++ fut = encodeFrames frames := by
  have htake := congrArg (List.take f.encode.length) h.next
  have hdrop := congrArg (List.drop f.encode.length) h.next
  rw [List.take_append_of_le_length hlen, List.take_left] at htake
  rw [List.drop_append_of_le_length hlen, List.drop_left] at hdrop
  refine ⟨?_, hdrop⟩
  conv_lhs => rw [← List.take_append_drop f.encode.length d.inU, htake]

/-- What has been passed behind a frame that is there. -/
theorem FramePlace.passes (h : FramePlace ahead fut D n [] (f :: frames) d)
    (hlen : f.encode.length ≤ d.inU.length) :
    ∃ done, (∀ g ∈ done, ClientFrame.Served g) ∧
      ahead = encodeFrames done ++ (f.encode ++ d.inU.drop f.encode.length) := by
  have hzero : d.wsFrameRemaining = 0 := h.remaining
  have hsize : 0 < f.encode.length := List.length_pos_iff.mpr f.encode_ne_nil
  rcases h.passed with hshort | ⟨done, hdone, hahead⟩
  · omega
  · refine ⟨done, hdone, ?_⟩
    rw [hahead, hzero, List.drop_zero, ← (h.whole hlen).1]

/-- A ping or a pong is skipped. -/
theorem FramePlace.skip (h : FramePlace ahead fut D n [] (f :: frames) d) (hserved : f.Served)
    (hcontrol : f.IsControl) (hlen : f.encode.length ≤ d.inU.length) (mask : Bytes)
    (offset : ℕ) :
    FramePlace ahead fut D n [] frames { d with
      inU := d.inU.drop f.encode.length
      wsFrameRemaining := 0
      wsMask := mask
      wsMaskOffset := offset } := by
  obtain ⟨done, hdone, hahead⟩ := h.passes hlen
  have hheld := h.held
  refine ⟨h.unciphered, h.live, h.wsState, rfl, (h.whole hlen).2, ?_, fun m => ?_,
    Or.inr ⟨done ++ [f], ?_, ?_⟩⟩
  · show (d.inU.drop f.encode.length).length ≤ n
    rw [List.length_drop]
    omega
  · have hmore := h.among (f.encode.length + m)
    rw [List.map_cons, among_control hcontrol] at hmore
    show d.inp ++ _ = D (n - (d.inU.drop f.encode.length).length + m)
    rw [hmore, List.length_drop, show n - d.inU.length + (f.encode.length + m) =
      n - (d.inU.length - f.encode.length) + m by omega]
  · intro g hg
    rcases List.mem_append.mp hg with hg | hg
    · exact hdone g hg
    · exact List.mem_singleton.mp hg ▸ hserved
  · rw [hahead]
    simp

/-- The header of a data frame is taken off. -/
theorem FramePlace.opens (h : FramePlace ahead fut D n [] (f :: frames) d) (hserved : f.Served)
    (hdata : f.IsData) (hlen : f.headerLen ≤ d.inU.length) :
    FramePlace ahead fut D n f.payload frames { d with
      inU := d.inU.drop f.headerLen
      wsFrameRemaining := f.payload.length
      wsMask := f.mask
      wsMaskOffset := 0 } := by
  have hheld := h.held
  have hencode := f.encode_length
  refine ⟨h.unciphered, h.live, h.wsState, rfl, ?_, ?_, fun m => ?_, ?_⟩
  · have hnext := congrArg (List.drop f.headerLen) h.next
    rwa [List.drop_append_of_le_length hlen, ClientFrame.encode, List.append_assoc,
      List.drop_left' f.header_length] at hnext
  · show (d.inU.drop f.headerLen).length ≤ n
    rw [List.length_drop]
    omega
  · have hmore := h.among (f.headerLen + m)
    rw [List.map_cons, among_header hdata] at hmore
    show d.inp ++ _ = D (n - (d.inU.drop f.headerLen).length + m)
    rw [hmore, List.length_drop, show n - d.inU.length + (f.headerLen + m) =
      n - (d.inU.length - f.headerLen) + m by omega]
  · by_cases hwhole : f.encode.length ≤ d.inU.length
    · obtain ⟨done, hdone, hahead⟩ := h.passes hwhole
      refine Or.inr ⟨done ++ [f], fun g hg => ?_, ?_⟩
      · rcases List.mem_append.mp hg with hg | hg
        · exact hdone g hg
        · exact List.mem_singleton.mp hg ▸ hserved
      · show ahead = encodeFrames (done ++ [f]) ++ (d.inU.drop f.headerLen).drop f.payload.length
        rw [List.drop_drop, ← hencode, hahead]
        simp
    · refine Or.inl ?_
      show (d.inU.drop f.headerLen).length ≤ f.payload.length
      rw [List.length_drop]
      omega

/-- Behind a frame for which 0 is returned no data frame stands, where none does in what was at
hand. -/
theorem FramePlace.clear (h : FramePlace ahead fut D n [] (f :: frames) d) (hserved : f.Served)
    (hzero : f.ReturnsZero) (hlen : f.encode.length ≤ d.inU.length)
    (hclear : ¬ DataFrameBehind ahead) : ¬ HoldsDataFrame (d.inU.drop f.encode.length) := by
  intro hholds
  obtain ⟨done, hdone, hahead⟩ := h.passes hlen
  exact hclear ⟨done, f, _, hahead, hdone, hserved, hzero, hholds⟩

end Frame

/-- **A turn of the loop.** -/
theorem FramePlace.turn (h : FramePlace ahead fut D n lead frames d) :
    FrameTurn ahead fut D n (decryptTurn d) := by
  by_cases hin : d.inU = []
  · obtain ⟨pos, write, hcrypto⟩ := h.unciphered
    have hturn : decryptTurn d = .done (.ok (d, 0)) := by
      simp only [decryptTurn, hcrypto, hin, List.length_nil, if_true]
    rw [hturn]
    exact .waits _ _ d 0 h fun _ => by rw [hin]; exact not_holdsDataFrame_nil
  obtain ⟨pos, write, hturn⟩ := h.turn_eq hin
  rw [hturn, decryptWsTurn]
  by_cases hlead : lead = []
  · subst hlead
    have hzero : d.wsFrameRemaining = 0 := h.remaining
    rw [if_pos hzero]
    cases frames with
    | nil => exact absurd (List.append_eq_nil_iff.mp h.bytes).1 hin
    | cons f frames =>
      have hresult : HeaderResult f ⟨d.inU, 0, d.wsMask, d.wsMaskOffset⟩
          (wsParseFrameHeader ⟨d.inU, 0, d.wsMask, d.wsMaskOffset⟩) :=
        wsParseFrameHeader_result h.next
      have hwaits (v : WsIn) (hparse : wsParseFrameHeader ⟨d.inU, 0, d.wsMask, d.wsMaskOffset⟩ =
          .ok (v, 0)) (hinput : v.input = d.inU) : ¬ HoldsDataFrame d.inU :=
        not_holdsDataFrame_of_waits hparse hinput
      generalize wsParseFrameHeader ⟨d.inU, 0, d.wsMask, d.wsMaskOffset⟩ = x at hresult hwaits ⊢
      cases hresult with
      | waits v hinput hremaining hlen _ =>
        obtain ⟨input, remaining, mask, maskOffset⟩ := v
        obtain rfl : input = d.inU := hinput
        obtain rfl : remaining = 0 := hremaining
        refine .waits [] (f :: frames) _ 0 ?_ fun _ => hwaits _ rfl rfl
        exact ⟨h.unciphered, h.live, h.wsState, rfl, h.bytes, h.held, h.among, by
          have := h.passed
          rwa [h.remaining] at this⟩
      | skips v hserved hcontrol hlen hinput hremaining =>
        obtain ⟨input, remaining, mask, maskOffset⟩ := v
        obtain rfl : input = d.inU.drop f.encode.length := hinput
        obtain rfl : remaining = 0 := hremaining
        exact .waits [] frames _ 0 (h.skip hserved hcontrol hlen mask maskOffset)
          (h.clear hserved (Or.inl hcontrol) hlen)
      | opens hserved hdata hlen =>
        have hopens := h.opens hserved hdata hlen
        dsimp only
        by_cases hpayload : f.payload = []
        · have hencode : f.encode.length = f.headerLen := by rw [f.encode_length, hpayload]; rfl
          have hclear := h.clear hserved (Or.inr ⟨hdata, hpayload⟩) (by rw [hencode]; exact hlen)
          rw [hencode] at hclear
          rw [if_neg (by omega), if_pos (by rw [hpayload]; rfl)]
          exact .waits _ _ _ 0 hopens hclear
        · have hpos : f.payload.length ≠ 0 := fun h0 => hpayload (List.length_eq_zero_iff.mp h0)
          rw [if_neg (by omega), if_neg (by exact_mod_cast hpos)]
          exact .goes _ _ _ (hopens.take pos write)
      | refused v _ hinput =>
        obtain ⟨input, remaining, mask, maskOffset⟩ := v
        obtain rfl : input = d.inU := hinput
        exact .failed _ 0 h.inp rfl
      | aborts a _ => exact .aborts a
  · have hpos : d.wsFrameRemaining ≠ 0 := by
      rw [h.remaining]
      exact fun h0 => hlead (List.length_eq_zero_iff.mp h0)
    rw [if_neg hpos]
    exact .goes _ _ _ (h.take pos write)

/-- **A call of `crypto_decrypt_input`** gives up the payload of what it consumes, and where no
data frame stands behind a frame it returns for it leaves none. -/
theorem FramePlace.decryptInput (h : FramePlace ahead fut D n lead frames d) {d' : Conn W} {r : ℤ}
    (hcall : cpuTcpAesCryptoCtr128DecryptInput d = .ok (d', r)) :
    d'.inp = D (n - d'.inU.length) ∧ (d'.cError = true ∨
      (∃ lead' frames', FramePlace ahead fut D n lead' frames' d') ∧
        (¬ DataFrameBehind ahead → ¬ HoldsDataFrame d'.inU)) := by
  have hloop := loop_inv
    (I := fun e => ∃ lead' frames', FramePlace ahead fut D n lead' frames' e)
    (Q := fun exit => ∀ d' r, exit = .ok (d', r) → d'.inp = D (n - d'.inU.length) ∧
      (d'.cError = true ∨ (∃ lead' frames', FramePlace (W := W) ahead fut D n lead' frames' d') ∧
        (¬ DataFrameBehind ahead → ¬ HoldsDataFrame d'.inU)))
    decryptTurn_shrinks ?_ ?_ ⟨lead, frames, h⟩
  · exact hloop d' r hcall
  · rintro e e' ⟨lead', frames', he⟩ hturn
    have hresult := he.turn
    rw [hturn] at hresult
    cases hresult with
    | goes lead'' frames'' _ he' => exact ⟨lead'', frames'', he'⟩
  · rintro e exit ⟨lead', frames', he⟩ hturn e' r rfl
    have hresult := he.turn
    rw [hturn] at hresult
    cases hresult with
    | waits lead'' frames'' _ _ he' hclear =>
      exact ⟨he'.inp, Or.inr ⟨⟨lead'', frames'', he'⟩, hclear⟩⟩
    | failed _ _ hinp herror => exact ⟨hinp, Or.inl herror⟩

end Place

/-! ### Frames that are left behind -/

section Between

variable {W : Type*}

/-- A receiver between two frames, whatever has arrived. -/
structure BetweenFrames (d : Conn W) : Prop where
  unciphered : Unciphered d
  live : d.cError = false
  wsState : d.wsState = .active
  remaining : d.wsFrameRemaining = 0

variable {d : Conn W} {f : ClientFrame} {rest : Bytes}

/-- A turn of the loop over what is at hand. -/
theorem BetweenFrames.turn_eq (h : BetweenFrames d) (hin : d.inU ≠ []) :
    ∃ pos write, decryptTurn d = decryptWsTurn d ⟨⟨fun _ => 0, pos⟩, write⟩ := by
  obtain ⟨pos, write, hcrypto⟩ := h.unciphered
  refine ⟨pos, write, ?_⟩
  have hlen : d.inU.length ≠ 0 := fun h => hin (List.length_eq_zero_iff.mp h)
  simp only [decryptTurn, hcrypto, if_neg hlen, if_pos h.wsState]

/-- A complete frame is at hand, and served. -/
theorem wsParseFrameHeader_served (w : WsIn) (hin : w.input = f.encode ++ rest)
    (hserved : f.Served) :
    f.IsControl ∧ (∃ v, wsParseFrameHeader w = .ok (v, 0) ∧ v.input = rest ∧
        v.remaining = w.remaining) ∨
      f.IsData ∧ wsParseFrameHeader w = .ok (⟨wsUnmaskData f.mask 0 f.payload ++ rest,
        f.payload.length, f.mask, 0⟩, f.payload.length) := by
  have hresult : HeaderResult f w (wsParseFrameHeader w) :=
    wsParseFrameHeader_result (show w.input ++ [] = f.encode ++ rest by rw [List.append_nil, hin])
  have hlen : f.encode.length ≤ w.input.length := by
    rw [hin, List.length_append]
    omega
  have hdrop : w.input.drop f.encode.length = rest := by rw [hin, List.drop_left]
  have hbehind : w.input.drop f.headerLen = wsUnmaskData f.mask 0 f.payload ++ rest := by
    rw [hin, ClientFrame.encode, List.append_assoc, List.drop_left' f.header_length]
  generalize wsParseFrameHeader w = x at hresult ⊢
  cases hresult with
  | waits _ _ _ hshort _ => omega
  | skips v _ hcontrol _ hinput hremaining =>
    exact Or.inl ⟨hcontrol, v, rfl, hinput.trans hdrop, hremaining⟩
  | opens _ hdata _ =>
    rw [hbehind]
    exact Or.inr ⟨hdata, rfl⟩
  | refused _ hnot => exact absurd hserved hnot
  | aborts _ hnot => exact absurd hserved hnot

/-- The loop goes on behind a data frame with payload. -/
theorem BetweenFrames.goes (h : BetweenFrames d) (hin : d.inU = f.encode ++ rest)
    (hserved : f.Served) (hgoes : ¬ f.ReturnsZero) :
    ∃ d', decryptTurn d = .again d' ∧ BetweenFrames d' ∧ d'.inU = rest := by
  obtain ⟨pos, write, hturn⟩ := h.turn_eq (by rw [hin]; simp [f.encode_ne_nil])
  rcases wsParseFrameHeader_served ⟨d.inU, 0, d.wsMask, d.wsMaskOffset⟩ hin hserved with
    ⟨hcontrol, -⟩ | ⟨hdata, hparse⟩
  · exact absurd (Or.inl hcontrol) hgoes
  · have hpos : f.payload.length ≠ 0 := fun h0 =>
      hgoes (Or.inr ⟨hdata, List.length_eq_zero_iff.mp h0⟩)
    have hlen : min f.payload.length (wsUnmaskData f.mask 0 f.payload ++ rest).length =
        f.payload.length := by
      rw [List.length_append, wsUnmaskData_length]
      omega
    rw [hturn, decryptWsTurn, if_pos h.remaining, hparse]
    dsimp only
    rw [if_neg (by omega), if_neg (by exact_mod_cast hpos)]
    refine ⟨_, rfl, ⟨⟨_, write, rfl⟩, h.live, h.wsState, ?_⟩, ?_⟩
    · show f.payload.length -
        min f.payload.length (wsUnmaskData f.mask 0 f.payload ++ rest).length = 0
      omega
    · show (wsUnmaskData f.mask 0 f.payload ++ rest).drop (min f.payload.length _) = rest
      rw [hlen, List.drop_left' (wsUnmaskData_length _ _ _)]

/-- It stops behind any other. -/
theorem BetweenFrames.stops (h : BetweenFrames d) (hin : d.inU = f.encode ++ rest)
    (hserved : f.Served) (hzero : f.ReturnsZero) :
    ∃ d' r, decryptTurn d = .done (.ok (d', r)) ∧ d'.cError = false ∧ d'.inU = rest := by
  obtain ⟨pos, write, hturn⟩ := h.turn_eq (by rw [hin]; simp [f.encode_ne_nil])
  rw [hturn, decryptWsTurn, if_pos h.remaining]
  rcases wsParseFrameHeader_served ⟨d.inU, 0, d.wsMask, d.wsMaskOffset⟩ hin hserved with
    ⟨-, v, hparse, hinput, -⟩ | ⟨hdata, hparse⟩
  · rw [hparse]
    exact ⟨_, 0, rfl, h.live, hinput⟩
  · have hpayload : f.payload = [] := by
      rcases hzero with hcontrol | ⟨-, hpayload⟩
      · exact absurd hcontrol hdata.2
      · exact hpayload
    rw [hparse, hpayload]
    exact ⟨_, 0, rfl, h.live, rfl⟩

/-- Frames in front of a buffer that holds a data frame. -/
theorem HoldsDataFrame.behind {input : Bytes} (h : HoldsDataFrame input)
    (fs : List ClientFrame) : HoldsDataFrame (encodeFrames fs ++ input) := by
  obtain ⟨gs, f, rest, rfl, hdata⟩ := h
  refine ⟨fs ++ gs, f, rest, ?_, hdata⟩
  rw [encodeFrames_append, List.append_assoc]

/-- **A data frame is left behind**, where one stands behind a frame the loop returns for. -/
theorem BetweenFrames.leaves (h : BetweenFrames d) (hbehind : DataFrameBehind d.inU) :
    ∃ d' r, cpuTcpAesCryptoCtr128DecryptInput d = .ok (d', r) ∧ d'.cError = false ∧
      HoldsDataFrame d'.inU := by
  obtain ⟨fs, s, rest, hin, hfs, hs, hzero, hholds⟩ := hbehind
  induction fs generalizing d with
  | nil =>
    obtain ⟨d', r, hturn, hlive, hrest⟩ := h.stops hin hs hzero
    exact ⟨d', r, loop_of_done _ hturn, hlive, hrest ▸ hholds⟩
  | cons g fs ih =>
    rw [encodeFrames_cons, List.append_assoc] at hin
    have hg := hfs g List.mem_cons_self
    by_cases hgzero : g.ReturnsZero
    · obtain ⟨d', r, hturn, hlive, hrest⟩ := h.stops hin hg hgzero
      refine ⟨d', r, loop_of_done _ hturn, hlive, ?_⟩
      have hone := (hholds.behind [s]).behind fs
      rwa [encodeFrames_cons, encodeFrames_nil, List.append_nil, ← hrest] at hone
    · obtain ⟨d', hturn, hbetween, hrest⟩ := h.goes hin hg hgzero
      have hloop : cpuTcpAesCryptoCtr128DecryptInput d = cpuTcpAesCryptoCtr128DecryptInput d' :=
        loop_of_again _ hturn
      rw [hloop]
      exact ih hbetween hrest fun f hf => hfs f (List.mem_cons_of_mem g hf)

/-- So it is where the receiver is in a frame whose rest is at hand. -/
theorem leaves_of_dataFrameBehind (hun : Unciphered d) (hlive : d.cError = false)
    (hws : d.wsState = .active) (hbehind : DataFrameBehind (d.inU.drop d.wsFrameRemaining)) :
    ∃ d' r, cpuTcpAesCryptoCtr128DecryptInput d = .ok (d', r) ∧ d'.cError = false ∧
      HoldsDataFrame d'.inU := by
  by_cases hzero : d.wsFrameRemaining = 0
  · rw [hzero] at hbehind
    exact BetweenFrames.leaves ⟨hun, hlive, hws, hzero⟩ hbehind
  · have hmore : d.wsFrameRemaining < d.inU.length := by
      obtain ⟨fs, s, rest, hin, -⟩ := hbehind
      have hlen := congrArg List.length hin
      have hpos : 0 < s.encode.length := List.length_pos_iff.mpr s.encode_ne_nil
      simp only [List.length_drop, List.length_append] at hlen
      omega
    obtain ⟨pos, write, hcrypto⟩ := hun
    have hturn : decryptTurn d = .again (decryptWsPayload d ⟨⟨fun _ => 0, pos⟩, write⟩) := by
      have hlen : d.inU.length ≠ 0 := by omega
      simp only [decryptTurn, hcrypto, if_neg hlen, if_pos hws, decryptWsTurn, if_neg hzero]
    have hmin : min d.wsFrameRemaining d.inU.length = d.wsFrameRemaining := by omega
    have hloop : cpuTcpAesCryptoCtr128DecryptInput d =
        cpuTcpAesCryptoCtr128DecryptInput (decryptWsPayload d ⟨⟨fun _ => 0, pos⟩, write⟩) :=
      loop_of_again _ hturn
    rw [hloop]
    refine BetweenFrames.leaves ⟨⟨_, write, rfl⟩, hlive, hws, ?_⟩ ?_
    · show d.wsFrameRemaining - min d.wsFrameRemaining d.inU.length = 0
      omega
    · show DataFrameBehind (d.inU.drop (min d.wsFrameRemaining d.inU.length))
      rw [hmin]
      exact hbehind

end Between

/-! ### Reads -/

section Reads

variable {W : Type*}

/-- The bytes of reads. -/
def readBytes (reads : List Read) : Bytes := reads.flatMap fun r => r.1.flatten

/-- **A receiver of frames**: a WebSocket client whose obfuscated2 header has been accepted. -/
structure ReceivesFrames (c : Conn W) (T : AesCrypto) : Prop where
  past : PastHeader c
  crypto : c.crypto = some T
  live : c.cError = false
  wsState : c.wsState = .active

/-- Where the next call of `crypto_decrypt_input` returns without failing the connection, it leaves
no complete data frame in `in_u`. -/
def LeavesNoFrame (c : Conn W) (bytes : Bytes) : Prop :=
  ∀ c' r, cpuTcpAesCryptoCtr128DecryptInput (c.pend bytes) = .ok (c', r) → c'.cError = false →
    ¬ HoldsDataFrame c'.inU

/-- With these bytes no complete data frame stands, behind the frame the receiver is in, behind a
complete ping, pong or data frame without payload. -/
def ReadClear (c : Conn W) (bytes : Bytes) : Prop :=
  ¬ DataFrameBehind ((c.inU ++ bytes).drop c.wsFrameRemaining)

/-- More of the stream arrives. -/
theorem FramePlace.reads {ahead bs fut lead : Bytes} {D : ℕ → Bytes} {n : ℕ}
    {frames : List ClientFrame} {d : Conn W}
    (h : FramePlace ahead (bs ++ fut) D n lead frames d) (c : Conn W) :
    FramePlace ((d.inU ++ bs).drop d.wsFrameRemaining) fut D (n + bs.length) lead frames
      (d.reads c bs) where
  unciphered := h.unciphered
  live := h.live
  wsState := h.wsState
  remaining := h.remaining
  bytes := by
    show d.inU ++ bs ++ fut = _
    rw [List.append_assoc]
    exact h.bytes
  held := by
    show (d.inU ++ bs).length ≤ _
    have := h.held
    rw [List.length_append]
    omega
  among m := by
    have := h.held
    show d.inp ++ _ = D (n + bs.length - (d.inU ++ bs).length + m)
    rw [List.length_append, show n + bs.length - (d.inU.length + bs.length) = n - d.inU.length by
      omega]
    exact h.among m
  passed := Or.inr ⟨[], fun _ hg => absurd hg List.not_mem_nil, rfl⟩

/-- The invariant of a run of reads of a stream. -/
structure FramesOk (T : AesCrypto) (stream : Bytes) (D : ℕ → Bytes) (x : Delivery W) : Prop where
  delivered : x.received <+: stream →
    x.delivered = xorAt T.read.ks T.read.pos (D (x.received.length - x.conn.inU.length))
  going : x.conn.cError = false → ∃ d, Mirrors T x d ∧ d.wsState = .active ∧
    ∀ fut, x.received ++ fut = stream →
      ∃ ahead lead frames, FramePlace ahead fut D x.received.length lead frames d

variable {env : ExtServerEnv W} {T : AesCrypto} {stream : Bytes} {D : ℕ → Bytes}
  {x x' : Delivery W} {d : Conn W}

/-- **The next call**, seen from the connection without a cipher. -/
theorem framesOk_call
    (hplace : ∀ fut, x.received ++ fut = stream →
      ∃ ahead lead frames, FramePlace ahead fut D x.received.length lead frames d)
    {bytes : Bytes} {d' : Conn W} {r : ℤ}
    (hcall : cpuTcpAesCryptoCtr128DecryptInput (d.reads x.conn bytes) = .ok (d', r)) {fut : Bytes}
    (hfut : x.received ++ bytes ++ fut = stream) :
    d'.inp = D ((x.received ++ bytes).length - d'.inU.length) ∧ (d'.cError = true ∨
      (∃ ahead lead frames,
        FramePlace ahead fut D (x.received ++ bytes).length lead frames d') ∧
        (¬ DataFrameBehind ((d.inU ++ bytes).drop d.wsFrameRemaining) →
          ¬ HoldsDataFrame d'.inU)) := by
  obtain ⟨ahead, lead, frames, h⟩ := hplace (bytes ++ fut) (by rw [← hfut, List.append_assoc])
  have hstart := h.reads x.conn
  rw [← List.length_append] at hstart
  obtain ⟨hinp, hend⟩ := hstart.decryptInput hcall
  exact ⟨hinp, hend.imp_right fun ⟨⟨lead', frames', h'⟩, hclear⟩ =>
    ⟨⟨_, lead', frames', h'⟩, hclear⟩⟩

/-- **One read.** -/
theorem FramesOk.read (h : FramesOk T stream D x) (hlive : x.conn.cError = false) {r : Read}
    (hstep : deliveryStep env (.ok x) r = .ok x') : FramesOk T stream D x' := by
  obtain ⟨d, hmirrors, hws, hplace⟩ := h.going hlive
  rcases hmirrors.read env r with ⟨a, -, habort⟩ | ⟨d', n, hcall, hread⟩
  · exact nomatch habort.symm.trans hstep
  obtain ⟨hreceived, hdelivered, -, hinU, hresult⟩ := hread x' hstep
  have hcalls {fut : Bytes} (hfut : x'.received ++ fut = stream) :=
    framesOk_call hplace hcall (by rw [← hreceived]; exact hfut)
  constructor
  · rintro ⟨fut, hfut⟩
    rw [hdelivered, (hcalls hfut).1, hreceived, hinU]
  · intro hlive'
    rcases hresult with ⟨-, hfailed, -⟩ | ⟨hgoes, hnext⟩
    · exact nomatch hfailed.symm.trans hlive'
    · have hframe := cpuTcpAesCryptoCtr128DecryptInput_frame hcall
      refine ⟨d', hnext hlive', hframe.wsState.trans hws, fun fut hfut => ?_⟩
      rcases (hcalls hfut).2 with hfailed | ⟨hplaces, -⟩
      · exact nomatch hfailed.symm.trans hgoes
      · rw [hreceived]
        exact hplaces

/-- **When a call leaves no complete data frame.** -/
theorem FramesOk.leaves_iff (h : FramesOk T stream D x) (hlive : x.conn.cError = false)
    {bytes : Bytes} (harrives : x.received ++ bytes <+: stream) :
    LeavesNoFrame x.conn bytes ↔ ReadClear x.conn bytes := by
  obtain ⟨d, hmirrors, hws, hplace⟩ := h.going hlive
  have hinput : (x.conn.inU ++ bytes).drop x.conn.wsFrameRemaining =
      (d.inU ++ bytes).drop d.wsFrameRemaining := by
    rw [hmirrors.inU, hmirrors.wsFrameRemaining]
  rw [ReadClear, hinput]
  constructor
  · intro hleaves hbehind
    obtain ⟨d', r, hcall, hlive', hholds⟩ :=
      leaves_of_dataFrameBehind (d := d.reads x.conn bytes) hmirrors.unciphered hmirrors.deframed
        hws hbehind
    obtain ⟨c', hcall', herror, -, hinU⟩ := hmirrors.decrypts hcall
    exact hleaves c' r hcall' (herror.trans hlive') (hinU ▸ hholds)
  · intro hclear c' r hcall' hlive'
    obtain ⟨fut, hfut⟩ := harrives
    obtain ⟨d', hcall, herror, hinU⟩ := hmirrors.decrypted hcall'
    rcases (framesOk_call hplace hcall hfut).2 with hfailed | ⟨-, hnone⟩
    · exact nomatch (herror.trans hfailed).symm.trans hlive'
    · rw [hinU]
      exact hnone hclear

/-- What has been delivered is the payload of what has been consumed, decrypted. -/
def FramesDelivered (T : AesCrypto) (lead : Bytes) (frames : List ClientFrame) (x : Delivery W) :
    Prop :=
  x.delivered = xorAt T.read.ks T.read.pos
    (Upcoming.among ⟨lead, frames.map ClientFrame.part⟩ (x.received.length - x.conn.inU.length))

variable (env) in
/-- **A run of reads.** -/
theorem framesOk_run {lead : Bytes} {frames : List ClientFrame}
    (hD : D = fun k => Upcoming.among ⟨lead, frames.map ClientFrame.part⟩ k) (reads : List Read)
    {s : Except ReaderFault (Delivery W)}
    (hs : ∀ x, s = .ok x → FramesOk T stream D x ∧ x.received <+: stream ∧
      (x.conn.cError = false → x.received ++ readBytes reads <+: stream)) :
    Throughout (deliveryStep env) (fun s => ∀ x, s = .ok x → FramesDelivered T lead frames x) s
        reads ∧
      (Along (deliveryStep env) (fun s r => ∀ x, s = .ok x → x.conn.cError = false →
          LeavesNoFrame x.conn r.1.flatten) s reads ↔
        Along (deliveryStep env) (fun s r => ∀ x, s = .ok x → x.conn.cError = false →
          ReadClear x.conn r.1.flatten) s reads) := by
  have hmoment : ∀ x, s = .ok x → FramesDelivered T lead frames x := by
    intro x hx
    obtain ⟨hok, hprefix, -⟩ := hs x hx
    subst hD
    exact hok.delivered hprefix
  induction reads generalizing s with
  | nil => exact ⟨hmoment, iff_of_true trivial trivial⟩
  | cons r reads ih =>
    have hnext : ∀ x', deliveryStep env s r = .ok x' → FramesOk T stream D x' ∧
        x'.received <+: stream ∧
        (x'.conn.cError = false → x'.received ++ readBytes reads <+: stream) := by
      intro x' hx'
      cases s with
      | error f => exact nomatch hx'
      | ok x =>
        obtain ⟨hok, hprefix, hmore⟩ := hs x rfl
        by_cases hlive : x.conn.cError = false
        · have hreceived := deliveryStep_received hlive hx'
          have hall : x'.received ++ readBytes reads <+: stream := by
            have := hmore hlive
            rwa [readBytes, List.flatMap_cons, ← List.append_assoc, ← hreceived] at this
          exact ⟨hok.read hlive hx', (List.prefix_append _ _).trans hall, fun _ => hall⟩
        · have hfailed : x.conn.cError = true := by simpa using hlive
          have hstay : deliveryStep env (.ok x) r = .ok { x with results := [] } := if_pos hfailed
          obtain rfl := Except.ok.inj (hstay.symm.trans hx')
          exact ⟨⟨hok.delivered, fun h => (hlive h).elim⟩, hprefix, fun h => (hlive h).elim⟩
    obtain ⟨hrun, hiff⟩ := ih hnext fun x' hx' => by
      obtain ⟨hok, hprefix, -⟩ := hnext x' hx'
      subst hD
      exact hok.delivered hprefix
    refine ⟨⟨hmoment, hrun⟩, ?_⟩
    rw [along_cons, along_cons, hiff]
    refine and_congr_left fun _ => forall_congr' fun x => forall_congr' fun hx =>
      forall_congr' fun hlive => ?_
    obtain ⟨hok, -, hmore⟩ := hs x hx
    refine hok.leaves_iff hlive (List.IsPrefix.trans ?_ (hmore hlive))
    rw [readBytes, List.flatMap_cons, ← List.append_assoc]
    exact List.prefix_append _ _

/-- **Exactly the payload of the frames is delivered, and no complete data frame is left behind,
exactly where none stands behind a ping, a pong or a data frame without payload** among the bytes
at hand in a read: for every stream of frames, from any place in a frame, and whatever the reads. -/
theorem wsStream_delivered_iff (env : ExtServerEnv W) (c : Conn W) (T : AesCrypto)
    (hc : ReceivesFrames c T) (lead : Bytes) (frames : List ClientFrame)
    (hlead : c.wsFrameRemaining = lead.length) (reads : List Read)
    (hstream : c.inU ++ readBytes reads <+:
      wsUnmaskData c.wsMask c.wsMaskOffset lead ++ encodeFrames frames) :
    (Throughout (deliveryStep env) (fun s => ∀ x, s = .ok x → FramesDelivered T lead frames x)
        (.ok ⟨c, c.inU, [], []⟩) reads ∧
      Along (deliveryStep env) (fun s r => ∀ x, s = .ok x → x.conn.cError = false →
        LeavesNoFrame x.conn r.1.flatten) (.ok ⟨c, c.inU, [], []⟩) reads) ↔
    Along (deliveryStep env) (fun s r => ∀ x, s = .ok x → x.conn.cError = false →
      ReadClear x.conn r.1.flatten) (.ok ⟨c, c.inU, [], []⟩) reads := by
  have hmirrors : Mirrors T ⟨c, c.inU, [], []⟩ (deframing c c.inU) :=
    ⟨hc.past, hc.live, hc.crypto, rfl, ⟨0, noCipher, rfl⟩, hc.live, rfl, rfl, rfl, rfl, rfl, rfl,
      rfl, rfl, rfl, rfl⟩
  have hok : FramesOk T (wsUnmaskData c.wsMask c.wsMaskOffset lead ++ encodeFrames frames)
      (fun k => Upcoming.among ⟨lead, frames.map ClientFrame.part⟩ k) ⟨c, c.inU, [], []⟩ := by
    constructor
    · intro _
      show [] = xorAt _ _ (Upcoming.among _ (c.inU.length - c.inU.length))
      rw [Nat.sub_self, Upcoming.among_zero]
      rfl
    · intro _
      refine ⟨_, hmirrors, hc.wsState, fun fut hfut =>
        ⟨c.inU.drop c.wsFrameRemaining, lead, frames, ?_⟩⟩
      refine ⟨⟨0, noCipher, rfl⟩, hc.live, hc.wsState, hlead, hfut, le_refl _, fun m => ?_,
        Or.inr ⟨[], fun _ hg => absurd hg List.not_mem_nil, rfl⟩⟩
      show [] ++ _ = Upcoming.among _ (c.inU.length - c.inU.length + m)
      rw [Nat.sub_self, Nat.zero_add, List.nil_append]
  obtain ⟨hrun, hiff⟩ := framesOk_run env (T := T) rfl reads fun x hx => by
    obtain rfl := Except.ok.inj hx
    exact ⟨hok, (List.prefix_append _ _).trans hstream, fun _ => hstream⟩
  rw [← hiff]
  exact and_iff_right hrun

end Reads

/-! ### A ping in front of data -/

/-- A WebSocket client between two frames. -/
def sampleFramed : Conn Unit := { sampleReceiver with wsState := .active, transportMode := .ws }

theorem sampleFramed_receives : ReceivesFrames sampleFramed ⟨⟨fun _ => 0, 64⟩, ⟨fun _ => 0, 0⟩⟩ :=
  ⟨Or.inl ⟨Or.inl rfl, rfl, by decide, Or.inl ⟨by decide, by decide⟩⟩, rfl, rfl, rfl⟩

/-- A ping, and a frame with two bytes. -/
def samplePing : ClientFrame :=
  ⟨0x89, .short, [1, 2, 3, 4], [], rfl, show (0 : ℕ) < 126 by decide⟩

def sampleData : ClientFrame :=
  ⟨0x82, .short, [1, 2, 3, 4], [7, 8], rfl, show (2 : ℕ) < 126 by decide⟩

/-- The ping in a read of its own, and the frame behind it in two. -/
theorem wsStream_delivered_iff_ping :
    (Throughout (deliveryStep sampleServer) (fun s => ∀ x, s = .ok x → FramesDelivered
        ⟨⟨fun _ => 0, 64⟩, ⟨fun _ => 0, 0⟩⟩ [] [samplePing, sampleData] x)
        (.ok ⟨sampleFramed, sampleFramed.inU, [], []⟩)
        [([[0x89, 0x80, 1, 2, 3, 4]], 1), ([[0x82, 0x82, 1]], 1), ([[2, 3, 4, 6], [10]], 1)] ∧
      Along (deliveryStep sampleServer) (fun s r => ∀ x, s = .ok x → x.conn.cError = false →
        LeavesNoFrame x.conn r.1.flatten) (.ok ⟨sampleFramed, sampleFramed.inU, [], []⟩)
        [([[0x89, 0x80, 1, 2, 3, 4]], 1), ([[0x82, 0x82, 1]], 1), ([[2, 3, 4, 6], [10]], 1)]) ↔
    Along (deliveryStep sampleServer) (fun s r => ∀ x, s = .ok x → x.conn.cError = false →
      ReadClear x.conn r.1.flatten) (.ok ⟨sampleFramed, sampleFramed.inU, [], []⟩)
      [([[0x89, 0x80, 1, 2, 3, 4]], 1), ([[0x82, 0x82, 1]], 1), ([[2, 3, 4, 6], [10]], 1)] := by
  refine wsStream_delivered_iff sampleServer sampleFramed _ sampleFramed_receives []
    [samplePing, sampleData] rfl _ ?_
  exact ⟨[], by decide⟩

/-- In one read the frame is left behind the ping. -/
theorem wsStream_not_delivered :
    ¬ ∀ (c : Conn Unit) (T : AesCrypto) (lead : Bytes) (frames : List ClientFrame)
      (reads : List Read), ReceivesFrames c T → c.wsFrameRemaining = lead.length →
      c.inU ++ readBytes reads <+:
        wsUnmaskData c.wsMask c.wsMaskOffset lead ++ encodeFrames frames →
      Throughout (deliveryStep sampleServer)
          (fun s => ∀ x, s = .ok x → FramesDelivered T lead frames x)
          (.ok ⟨c, c.inU, [], []⟩) reads ∧
        Along (deliveryStep sampleServer) (fun s r => ∀ x, s = .ok x → x.conn.cError = false →
          LeavesNoFrame x.conn r.1.flatten) (.ok ⟨c, c.inU, [], []⟩) reads := by
  intro h
  obtain ⟨-, halong⟩ := h sampleFramed _ [] [samplePing, sampleData]
    [([encodeFrames [samplePing, sampleData]], 1)] sampleFramed_receives rfl ⟨[], by decide⟩
  have hleaves := halong.1 _ rfl rfl
  obtain ⟨c', r, hcall, hlive, hholds⟩ := leaves_of_dataFrameBehind
    (d := sampleFramed.pend (encodeFrames [samplePing, sampleData])) ⟨64, _, rfl⟩ rfl rfl
    ⟨[], samplePing, sampleData.encode, by decide, fun _ hg => absurd hg List.not_mem_nil,
      ⟨by decide, by decide, by decide⟩, Or.inl (by decide),
      ⟨[], sampleData, [], by simp, by decide⟩⟩
  refine hleaves c' r ?_ hlive hholds
  simpa using hcall

end Server
end Teleproto3
