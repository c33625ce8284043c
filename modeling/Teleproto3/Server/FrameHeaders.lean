/-
# Frame headers of any kind

What `ws_parse_frame_header` makes of any bytes: masked or not, with any opcode, reserved bits and
length.  `wsParseFrameHeader_head` says it for bytes that begin with a head, `_part` for those that
are the beginning of one.

The function computes with `int`: the sum of header and payload that a ping or pong is skipped by
can wrap around, since lengths up to `2 ^ 31 - 1` are admitted.  `HeaderArithmetic` is a record of
that arithmetic, and `wsArithmetic_iff` says for which bytes it is sound.
-/

import Teleproto3.Server.WebSocket
import Teleproto3.Wire.WsHead

namespace Teleproto3
namespace Server

open Lib Wire

/-! ### Heads -/

/-- The number of bytes up to the payload. -/
def headerLen (h : WsHead) : ℕ := h.size + if h.masked then 4 else 0

/-- A length of `2 ^ 31` or more is refused, any other is read. -/
theorem wsPayloadLength_head (h : WsHead) (rest : Bytes) :
    wsPayloadLength (h.bytes ++ rest) =
      if 2 ^ 31 ≤ h.length.value then .error (-1) else .ok (h.length.value, h.size) := by
  have hlen : (h.bytes ++ rest).length = h.size + rest.length := by
    rw [List.length_append, h.bytes_length]
  have hsix : (h.bytes ++ rest).drop 6 = ((h.bytes ++ rest).drop 2).drop 4 := by
    rw [List.drop_drop]
  rw [wsPayloadLength]
  dsimp only
  rw [h.getD_one, h.code_eq, hlen, hsix, h.drop_two]
  obtain ⟨first, masked, l⟩ := h
  cases l with
  | seven n hn =>
    have hsmall : ¬ 2 ^ 31 ≤ n := by omega
    simp only [WsLength.code, WsLength.value]
    rw [if_neg (by omega), if_neg (by omega)]
    exact (if_neg hsmall).symm
  | sixteen n hn =>
    have hsz : (⟨first, masked, .sixteen n hn⟩ : WsHead).size = 4 := by
      simp [WsHead.size, WsLength.more]
    have hvalue : beValue ((beBytes 2 n ++ rest).take 2) = n := by
      rw [List.take_left' (beBytes_length 2 n), beValue_beBytes 2 n hn]
    simp only [WsLength.code, WsLength.value, WsLength.more, hsz, hvalue, if_true]
    rw [if_neg (by omega), if_neg (by omega)]
  | sixtyFour n hn =>
    have hsz : (⟨first, masked, .sixtyFour n hn⟩ : WsHead).size = 10 := by
      simp [WsHead.size, WsLength.more]
    have hsplit : beBytes 8 n ++ rest = beBytes 4 (n / 256 ^ 4) ++ (beBytes 4 n ++ rest) := by
      rw [← List.append_assoc, ← beBytes_add]
    have hlow : beValue ((beBytes 4 n ++ rest).take 4) = n % 256 ^ 4 := by
      rw [List.take_left' (beBytes_length 4 n), beValue_beBytes_mod]
    have hzero : beBytes 4 (n / 256 ^ 4) = [0, 0, 0, 0] ↔ n < 256 ^ 4 := by
      constructor
      · intro heq
        have hvalue := congrArg beValue heq
        rw [beValue_beBytes 4 _ (by omega)] at hvalue
        have : n / 256 ^ 4 = 0 := hvalue
        omega
      · intro hlt
        rw [Nat.div_eq_of_lt hlt]
        rfl
    simp only [WsLength.code, WsLength.value, WsLength.more, hsz, hsplit, if_true]
    rw [if_neg (by decide), if_neg (by omega), List.take_left' (beBytes_length 4 _),
      List.drop_left' (beBytes_length 4 _), hlow]
    by_cases hbig : n < 256 ^ 4
    · rw [if_neg (not_not.mpr (hzero.mpr hbig)), Nat.mod_eq_of_lt hbig]
    · rw [if_pos fun heq => hbig (hzero.mp heq), if_pos (by omega)]

/-- The fields behind a head: a masking key that is there is taken over. -/
def WsIn.keyed (w : WsIn) (h : WsHead) (rest : Bytes) : WsIn :=
  if h.masked then { w with mask := rest.take 4, maskOffset := 0 } else w

@[simp] theorem WsIn.keyed_input (w : WsIn) (h : WsHead) (rest : Bytes) :
    (w.keyed h rest).input = w.input := by
  unfold keyed
  split_ifs <;> rfl

@[simp] theorem WsIn.keyed_remaining (w : WsIn) (h : WsHead) (rest : Bytes) :
    (w.keyed h rest).remaining = w.remaining := by
  unfold keyed
  split_ifs <;> rfl

/-- **Bytes that begin with a head.** -/
theorem wsParseFrameHeader_head {w : WsIn} {h : WsHead} {rest : Bytes}
    (hw : w.input = h.bytes ++ rest) :
    wsParseFrameHeader w =
      if 2 ^ 31 ≤ h.length.value then .ok (w, -1)
      else if h.masked = true ∧ rest.length < 4 then .ok (w, 0)
      else wsFrameOpcode (w.keyed h rest) h.opcode (headerLen h) h.length.value := by
  have hsize := h.size_bounds
  have hlen : w.input.length = h.size + rest.length := by
    rw [hw, List.length_append, h.bytes_length]
  have hfirst : (w.input.getD 0 0).toNat % 16 = h.opcode := by
    rw [hw, h.getD_zero]
    rfl
  have hmasked : (w.input.getD 1 0).toNat / 128 = 1 ↔ h.masked = true := by
    rw [hw, h.getD_one]
    exact h.masked_iff
  have hkey : w.input.drop h.size = rest := by
    rw [hw]
    exact List.drop_left' h.bytes_length
  rw [wsParseFrameHeader, if_neg (by omega)]
  dsimp only
  rw [hfirst]
  conv_lhs => rw [hw, wsPayloadLength_head, ← hw]
  by_cases hbig : 2 ^ 31 ≤ h.length.value
  · rw [if_pos hbig, if_pos hbig]
  rw [if_neg hbig, if_neg hbig]
  dsimp only
  cases hm : h.masked with
  | false =>
    rw [if_neg (fun hbit => by rw [hmasked, hm] at hbit; exact nomatch hbit),
      if_neg (fun hboth => nomatch hboth.1), WsIn.keyed, headerLen, hm]
    rfl
  | true =>
    rw [if_pos (hmasked.mpr hm), WsIn.keyed, headerLen, hm, hkey]
    by_cases hshort : rest.length < 4
    · rw [if_pos (by omega), if_pos ⟨rfl, hshort⟩]
    · rw [if_neg (by omega), if_neg fun hboth => hshort hboth.2]
      rfl

/-- Of the beginning of a head the length is waited for. -/
theorem wsPayloadLength_part {input : Bytes} {h : WsHead} (hpart : h.PartOf input)
    (h2 : 2 ≤ input.length) : wsPayloadLength input = .error 0 := by
  have hsecond : input.getD 1 0 = h.second := by
    have hpre : input <+: h.bytes := ⟨_, hpart.completes.symm⟩
    exact getD_of_prefix hpre (by omega) 0
  have hshort := hpart.short
  rw [WsHead.size] at hshort
  rw [wsPayloadLength]
  dsimp only
  rw [hsecond, h.code_eq]
  cases hl : h.length with
  | seven n hn =>
    rw [hl, WsLength.more, List.length_nil] at hshort
    omega
  | sixteen n hn =>
    rw [hl, WsLength.more, beBytes_length] at hshort
    rw [WsLength.code, if_pos rfl, if_pos (by omega)]
  | sixtyFour n hn =>
    rw [hl, WsLength.more, beBytes_length] at hshort
    rw [WsLength.code, if_neg (by decide), if_pos rfl, if_pos (by omega)]

/-- **The beginning of a head** is waited for. -/
theorem wsParseFrameHeader_part {w : WsIn} {h : WsHead} (hpart : h.PartOf w.input) :
    wsParseFrameHeader w = .ok (w, 0) := by
  rw [wsParseFrameHeader]
  by_cases h2 : w.input.length < 2
  · rw [if_pos h2]
  · rw [if_neg h2, wsPayloadLength_part hpart (by omega)]

/-! ### The arithmetic -/

/-- What a call of `ws_parse_frame_header` computes with: the exact sum of header and payload
where it forms one, the count it asks `rwm_skip_data` for where it calls it, and what
`ws_frame_remaining` is afterwards. -/
structure HeaderArithmetic where
  sum : Option ℤ
  skip : Option ℤ
  frameRemaining : ℤ
  deriving DecidableEq, Repr

/-- The arithmetic of `wsFrameOpcode`. -/
def wsOpcodeArithmetic (total remaining opcode headerLen payloadLen : ℕ) : HeaderArithmetic :=
  if opcode = 0x8 then ⟨none, none, remaining⟩
  else if opcode = 0x9 ∨ opcode = 0xA then
    let sum : ℤ := headerLen + payloadLen
    ⟨some sum, if total < wrap32 sum then none else some (wrap32 sum), remaining⟩
  else if total < headerLen then ⟨none, none, remaining⟩
  else ⟨none, some headerLen, payloadLen⟩

/-- The arithmetic of `wsParseFrameHeader`. -/
def wsHeaderArithmetic (w : WsIn) : HeaderArithmetic :=
  let total := w.input.length
  if total < 2 then ⟨none, none, w.remaining⟩
  else
    let opcode := (w.input.getD 0 0).toNat % 16
    match wsPayloadLength w.input with
    | .error _ => ⟨none, none, w.remaining⟩
    | .ok (payloadLen, pos) =>
      if (w.input.getD 1 0).toNat / 128 = 1 then
        if min total 14 < pos + 4 then ⟨none, none, w.remaining⟩
        else wsOpcodeArithmetic total w.remaining opcode (pos + 4) payloadLen
      else wsOpcodeArithmetic total w.remaining opcode pos payloadLen

/-- **The record is that of the call**: what is skipped, what is left of the frame, and the
assertion that fails. -/
inductive Computes (w : WsIn) : HeaderArithmetic → Except Abort (WsIn × ℤ) → Prop
  | none (v : WsIn) (ret : ℤ) (sum : Option ℤ) (hinput : v.input = w.input) :
      Computes w ⟨sum, none, v.remaining⟩ (.ok (v, ret))
  | skip (v : WsIn) (ret : ℤ) (sum : Option ℤ) (n : ℕ) (hinput : v.input = w.input.drop n) :
      Computes w ⟨sum, some n, v.remaining⟩ (.ok (v, ret))
  | abort (n : ℤ) (hneg : n < 0) (sum : Option ℤ) (remaining : ℤ) :
      Computes w ⟨sum, some n, remaining⟩ (.error (.rwmProcessEx n))

theorem wsOpcodeArithmetic_computes (w v : WsIn) (hinput : v.input = w.input)
    (hremaining : v.remaining = w.remaining) (opcode headerLen payloadLen : ℕ) :
    Computes w (wsOpcodeArithmetic w.input.length w.remaining opcode headerLen payloadLen)
      (wsFrameOpcode v opcode headerLen payloadLen) := by
  unfold wsOpcodeArithmetic wsFrameOpcode
  rw [hinput, ← hremaining]
  by_cases hclose : opcode = 0x8
  · rw [if_pos hclose, if_pos hclose]
    exact .none v (-1) none hinput
  rw [if_neg hclose, if_neg hclose]
  by_cases hcontrol : opcode = 0x9 ∨ opcode = 0xA
  · rw [if_pos hcontrol, if_pos hcontrol]
    dsimp only
    generalize wrap32 ((headerLen : ℤ) + payloadLen) = whole
    by_cases hshort : (w.input.length : ℤ) < whole
    · rw [if_pos hshort, if_pos hshort]
      exact .none v 0 _ hinput
    rw [if_neg hshort, if_neg hshort]
    by_cases hneg : whole < 0
    · rw [if_pos hneg]
      exact .abort whole hneg _ _
    · obtain ⟨n, rfl⟩ : ∃ n : ℕ, whole = n := ⟨whole.toNat, by omega⟩
      rw [if_neg hneg, Int.toNat_natCast]
      exact .skip { v with input := w.input.drop n } 0 _ n rfl
  · rw [if_neg hcontrol, if_neg hcontrol]
    by_cases hshort : w.input.length < headerLen
    · rw [if_pos hshort, if_pos hshort]
      exact .none v 0 _ hinput
    · rw [if_neg hshort, if_neg hshort]
      exact .skip { v with input := w.input.drop headerLen, remaining := payloadLen } _ _
        headerLen rfl

/-- **The record of any call.** -/
theorem wsHeaderArithmetic_computes (w : WsIn) :
    Computes w (wsHeaderArithmetic w) (wsParseFrameHeader w) := by
  unfold wsHeaderArithmetic wsParseFrameHeader
  dsimp only
  by_cases hshort : w.input.length < 2
  · rw [if_pos hshort, if_pos hshort]
    exact .none w 0 none rfl
  rw [if_neg hshort, if_neg hshort]
  cases wsPayloadLength w.input with
  | error ret => exact .none w ret none rfl
  | ok p =>
    dsimp only
    by_cases hmasked : (w.input.getD 1 0).toNat / 128 = 1
    · rw [if_pos hmasked, if_pos hmasked]
      by_cases hkey : min w.input.length 14 < p.2 + 4
      · rw [if_pos hkey, if_pos hkey]
        exact .none w 0 none rfl
      · rw [if_neg hkey, if_neg hkey]
        exact wsOpcodeArithmetic_computes w
          { w with mask := (w.input.drop p.2).take 4, maskOffset := 0 } rfl rfl _ _ _
    · rw [if_neg hmasked, if_neg hmasked]
      exact wsOpcodeArithmetic_computes w w rfl rfl _ _ _

/-- **The arithmetic of a call is sound**: the sum fits an `int`, what is to be skipped is there,
and what is left of the frame is not negative. -/
structure ArithmeticSound (w : WsIn) : Prop where
  sum : ∀ s ∈ (wsHeaderArithmetic w).sum, -2 ^ 31 ≤ s ∧ s < 2 ^ 31
  skip : ∀ n ∈ (wsHeaderArithmetic w).skip, 0 ≤ n ∧ n ≤ w.input.length
  remaining : 0 ≤ (wsHeaderArithmetic w).frameRemaining

/-- **The condition.**  Behind the header of a ping or pong, all there and with a length below
`2 ^ 31`, header and payload together stay below `2 ^ 31` as well. -/
def SumFits (input : Bytes) : Prop :=
  ∀ (h : WsHead) (rest : Bytes), input = h.bytes ++ rest → h.opcode = 0x9 ∨ h.opcode = 0xA →
    (h.masked = true → 4 ≤ rest.length) → h.length.value < 2 ^ 31 →
      headerLen h + h.length.value < 2 ^ 31

/-- The arithmetic behind a head. -/
theorem wsHeaderArithmetic_head {w : WsIn} {h : WsHead} {rest : Bytes}
    (hw : w.input = h.bytes ++ rest) :
    wsHeaderArithmetic w =
      if 2 ^ 31 ≤ h.length.value ∨ h.masked = true ∧ rest.length < 4 then
        ⟨none, none, w.remaining⟩
      else wsOpcodeArithmetic w.input.length w.remaining h.opcode (headerLen h)
        h.length.value := by
  have hsize := h.size_bounds
  have hlen : w.input.length = h.size + rest.length := by
    rw [hw, List.length_append, h.bytes_length]
  have hfirst : (w.input.getD 0 0).toNat % 16 = h.opcode := by
    rw [hw, h.getD_zero]
    rfl
  have hmasked : (w.input.getD 1 0).toNat / 128 = 1 ↔ h.masked = true := by
    rw [hw, h.getD_one]
    exact h.masked_iff
  have hread : wsPayloadLength w.input =
      if 2 ^ 31 ≤ h.length.value then .error (-1) else .ok (h.length.value, h.size) := by
    rw [hw, wsPayloadLength_head]
  unfold wsHeaderArithmetic
  dsimp only
  rw [if_neg (by omega), hread, hfirst]
  by_cases hbig : 2 ^ 31 ≤ h.length.value
  · rw [if_pos hbig, if_pos (Or.inl hbig)]
  rw [if_neg hbig]
  dsimp only
  cases hm : h.masked with
  | false =>
    rw [if_neg (fun hbit => by rw [hmasked, hm] at hbit; exact nomatch hbit),
      if_neg (by simp; omega), headerLen, hm]
    rfl
  | true =>
    rw [if_pos (hmasked.mpr hm), headerLen, hm]
    by_cases hshort : rest.length < 4
    · rw [if_pos (by omega), if_pos (Or.inr ⟨rfl, hshort⟩)]
    · rw [if_neg (by omega), if_neg (by simp [hshort]; omega)]
      rfl

/-- Of the beginning of a head nothing is computed. -/
theorem wsHeaderArithmetic_part {w : WsIn} {h : WsHead} (hpart : h.PartOf w.input) :
    wsHeaderArithmetic w = ⟨none, none, w.remaining⟩ := by
  unfold wsHeaderArithmetic
  dsimp only
  by_cases h2 : w.input.length < 2
  · rw [if_pos h2]
  · rw [if_neg h2, wsPayloadLength_part hpart (by omega)]

/-- The arithmetic behind a header. -/
theorem wsOpcodeArithmetic_sound {total remaining opcode headerLen payloadLen : ℕ} :
    ((∀ s ∈ (wsOpcodeArithmetic total remaining opcode headerLen payloadLen).sum,
        -2 ^ 31 ≤ s ∧ s < 2 ^ 31) ∧
      (∀ n ∈ (wsOpcodeArithmetic total remaining opcode headerLen payloadLen).skip,
        0 ≤ n ∧ n ≤ total) ∧
      0 ≤ (wsOpcodeArithmetic total remaining opcode headerLen payloadLen).frameRemaining) ↔
    (opcode = 0x9 ∨ opcode = 0xA → headerLen + payloadLen < 2 ^ 31) := by
  unfold wsOpcodeArithmetic
  by_cases hclose : opcode = 0x8
  · rw [if_pos hclose]
    simp
    omega
  rw [if_neg hclose]
  by_cases hcontrol : opcode = 0x9 ∨ opcode = 0xA
  · rw [if_pos hcontrol]
    constructor
    · rintro ⟨hsum, -, -⟩ -
      have := hsum _ rfl
      omega
    · intro hfits
      have hlt := hfits hcontrol
      have hwrap : wrap32 ((headerLen : ℤ) + payloadLen) = headerLen + payloadLen :=
        wrap32_of_fits (by omega) (by omega)
      dsimp only
      rw [hwrap]
      refine ⟨?_, ?_, Int.natCast_nonneg _⟩
      · rintro s ⟨⟩
        omega
      · intro n hn
        split_ifs at hn with hshort
        · exact nomatch hn
        · cases hn
          omega
  · rw [if_neg hcontrol]
    refine iff_of_true ?_ fun h => absurd h hcontrol
    split_ifs with hshort
    · exact ⟨nofun, nofun, Int.natCast_nonneg _⟩
    · refine ⟨nofun, ?_, Int.natCast_nonneg _⟩
      rintro n ⟨⟩
      omega

/-- The arithmetic is sound exactly where the sum fits. -/
theorem arithmeticSound_iff (w : WsIn) : ArithmeticSound w ↔ SumFits w.input := by
  have hnone (hw : wsHeaderArithmetic w = ⟨none, none, w.remaining⟩) : ArithmeticSound w := by
    constructor <;> rw [hw]
    · exact nofun
    · exact nofun
    · exact Int.natCast_nonneg _
  constructor
  · intro hsound h rest hw hcontrol hkey hsmall
    have hhead := wsHeaderArithmetic_head hw
    have hlooked : ¬ (2 ^ 31 ≤ h.length.value ∨ h.masked = true ∧ rest.length < 4) := by
      rintro (hbig | ⟨hmasked, hshort⟩)
      · omega
      · have := hkey hmasked
        omega
    rw [if_neg hlooked] at hhead
    obtain ⟨hsum, hskip, hremaining⟩ := hsound
    rw [hhead] at hsum hskip hremaining
    exact wsOpcodeArithmetic_sound.mp ⟨hsum, hskip, hremaining⟩ hcontrol
  · intro hfits
    rcases WsHead.cases w.input with ⟨h, rest, hw⟩ | ⟨h, hpart⟩
    · have hhead := wsHeaderArithmetic_head hw
      by_cases hlooked : 2 ^ 31 ≤ h.length.value ∨ h.masked = true ∧ rest.length < 4
      · rw [if_pos hlooked] at hhead
        exact hnone hhead
      · rw [if_neg hlooked] at hhead
        simp only [not_or, not_and, not_le, not_lt] at hlooked
        obtain ⟨hsum, hskip, hremaining⟩ := wsOpcodeArithmetic_sound.mpr fun hcontrol =>
          hfits h rest hw hcontrol hlooked.2 hlooked.1
        rw [← hhead] at hsum hskip hremaining
        exact ⟨hsum, hskip, hremaining⟩
    · exact hnone (wsHeaderArithmetic_part hpart)

/-- A sum that does not fit is a negative `int`. -/
theorem wsFrameOpcode_wraps {v : WsIn} {opcode headerLen payloadLen : ℕ}
    (hcontrol : opcode = 0x9 ∨ opcode = 0xA) (hbig : 2 ^ 31 ≤ headerLen + payloadLen)
    (hlt : headerLen + payloadLen < 2 ^ 32) :
    ∃ n < 0, wsFrameOpcode v opcode headerLen payloadLen = .error (.rwmProcessEx n) := by
  have hneg : wrap32 ((headerLen : ℤ) + payloadLen) < 0 := by
    unfold wrap32
    rw [Int.bmod_def]
    split_ifs <;> omega
  refine ⟨_, hneg, ?_⟩
  rw [wsFrameOpcode, if_neg (by omega), if_pos hcontrol]
  dsimp only
  rw [if_neg (by omega), if_pos hneg]

/-- **The arithmetic is sound exactly where the sum fits**, for every content of the input and
every state of the frame before it; and exactly where it does not, the call ends in an
assertion. -/
theorem wsArithmetic_iff (w : WsIn) :
    (ArithmeticSound w ↔ SumFits w.input) ∧
      ((∃ a, wsParseFrameHeader w = .error a) ↔ ¬ SumFits w.input) := by
  refine ⟨arithmeticSound_iff w, ?_⟩
  constructor
  · rintro ⟨a, ha⟩ hfits
    have hskip := ((arithmeticSound_iff w).mpr hfits).skip
    have hcomputes := wsHeaderArithmetic_computes w
    generalize wsHeaderArithmetic w = arithmetic at hskip hcomputes
    rw [ha] at hcomputes
    cases hcomputes with
    | abort n hneg sum remaining =>
      have := hskip n rfl
      omega
  · intro hno
    simp only [SumFits, not_forall, not_lt] at hno
    obtain ⟨h, rest, hw, hcontrol, hkey, hsmall, hbig⟩ := hno
    have hsize := h.size_bounds
    have hshort : ¬ (h.masked = true ∧ rest.length < 4) := by
      rintro ⟨hmasked, hshort⟩
      have := hkey hmasked
      omega
    have hlt : headerLen h + h.length.value < 2 ^ 32 := by
      unfold headerLen
      split_ifs <;> omega
    obtain ⟨n, -, hn⟩ := wsFrameOpcode_wraps (v := w.keyed h rest) hcontrol hbig hlt
    refine ⟨.rwmProcessEx n, ?_⟩
    rw [wsParseFrameHeader_head hw, if_neg (by omega), if_neg hshort]
    exact hn

/-- An unmasked ping of `2 ^ 31 - 1` bytes of which only the header is there: `rwm_skip_data` is
asked for a negative number of bytes. -/
theorem wsArithmetic_not_sound : ¬ ∀ w, ArithmeticSound w := by
  intro h
  have hskip := (h ⟨[0x89, 0x7F, 0, 0, 0, 0, 0x7F, 0xFF, 0xFF, 0xFF], 0, [], 0⟩).skip
    (-2 ^ 31 + 9) (by decide)
  omega

end Server
end Teleproto3
