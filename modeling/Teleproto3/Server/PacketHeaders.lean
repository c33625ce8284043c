/-
# Headers of packets, written and read

The length that `tcp_rpc_write_packet_compact` puts in front of a packet is read in two places, by
`obfs2_parse_frame_length` and by the packet loop of `tcp_rpcs_compact_parse_execute`, each with a
copy of the same code.  Here both stand as the source spells them, on a word of 32 bits, whose top
bit is the sign of an `int` as well as the quick-ack bit of the medium mode.

`obfs2ParseFrameWord_eq` and `parsePacket_word` connect them with the definitions on numbers.
-/

import Mathlib.Data.Nat.Bitwise
import Teleproto3.Server.ExtServer
import Teleproto3.Server.Writer

namespace Teleproto3
namespace Server

open Lib

/-! ### The two readers -/

/-- `RPC_F_QUICKACK`. -/
def RPC_F_QUICKACK : BitVec 32 := 0x80000000

/-- The tests at the end of `obfs2_parse_frame_length`. -/
def obfs2CheckWord (flags : RpcFlags) (maxPacketLen packetLen : BitVec 32) (headerBytes : ℕ)
    (quickack : Bool) : Option Obfs2FrameResult :=
  if packetLen.sle 0 ∨ packetLen &&& 0xc0000000 ≠ 0 then none
  else if flags.pad = false ∧ packetLen &&& 3 ≠ 0 then none
  else if BitVec.slt 0 maxPacketLen ∧ maxPacketLen.slt packetLen then none
  else some ⟨packetLen.toNat, headerBytes, quickack⟩

/-- `obfs2_parse_frame_length` on an `int`. -/
def obfs2ParseFrameWord (raw4 : BitVec 32) (flags : RpcFlags) (maxPacketLen : BitVec 32) :
    Option Obfs2FrameResult :=
  if flags.medium then
    if raw4.slt 0 ∧ BitVec.slt (-1000) raw4 then none
    else obfs2CheckWord flags maxPacketLen (raw4 &&& ~~~RPC_F_QUICKACK) 4
      (raw4 &&& RPC_F_QUICKACK ≠ 0)
  else
    let quickack := decide (raw4 &&& 0x80 ≠ 0)
    let packetLen := if quickack then raw4 &&& ~~~0x80 else raw4
    if packetLen &&& 0xff = 0x7f then
      if (packetLen >>> 8).slt 0x7f then none
      else obfs2CheckWord flags maxPacketLen (packetLen >>> 8 <<< 2) 4 quickack
    else obfs2CheckWord flags maxPacketLen ((packetLen &&& 0x7f) <<< 2) 1 quickack

/-- The tests of the packet loop. -/
def packetCheckWord (flags : RpcFlags) (maxPacketLen packetLen : BitVec 32) (packetLenBytes : ℕ)
    (quickack : Bool) : Option Obfs2FrameResult :=
  if packetLen.sle 0 ∨ packetLen &&& 0xc0000000 ≠ 0 ∨ flags.pad = false ∧ packetLen &&& 3 ≠ 0 then
    none
  else if maxPacketLen.slt packetLen ∧ BitVec.slt 0 maxPacketLen then none
  else some ⟨packetLen.toNat, packetLenBytes, quickack⟩

/-- The lines of the packet loop about the length: `packet_len`, `packet_len_bytes` and the bit
`RPC_F_QUICKACK` of `D->flags`, or nothing for a word that ends the connection. -/
def packetWord (word : BitVec 32) (flags : RpcFlags) (maxPacketLen : BitVec 32) :
    Option Obfs2FrameResult :=
  if flags.medium then
    if word.slt 0 ∧ BitVec.slt (-1000) word then none
    else packetCheckWord flags maxPacketLen (word &&& ~~~RPC_F_QUICKACK) 4
      (word &&& RPC_F_QUICKACK ≠ 0)
  else
    let (packetLen, quickack) :=
      if word &&& 0x80 ≠ 0 then (word &&& ~~~0x80, true) else (word, false)
    if packetLen &&& 0xff = 0x7f then
      if (packetLen >>> 8).slt 0x7f then none
      else packetCheckWord flags maxPacketLen (packetLen >>> 8 <<< 2) 4 quickack
    else packetCheckWord flags maxPacketLen ((packetLen &&& 0x7f) <<< 2) 1 quickack

theorem packetCheckWord_eq (flags : RpcFlags) (maxPacketLen packetLen : BitVec 32)
    (packetLenBytes : ℕ) (quickack : Bool) :
    packetCheckWord flags maxPacketLen packetLen packetLenBytes quickack =
      obfs2CheckWord flags maxPacketLen packetLen packetLenBytes quickack := by
  unfold packetCheckWord obfs2CheckWord
  by_cases hbad : packetLen.sle 0 ∨ packetLen &&& 0xc0000000 ≠ 0
  · rw [if_pos hbad, if_pos (or_assoc.mp (Or.inl hbad))]
  rw [if_neg hbad]
  by_cases hpad : flags.pad = false ∧ packetLen &&& 3 ≠ 0
  · rw [if_pos hpad, if_pos (or_assoc.mp (Or.inr hpad))]
  · rw [if_neg hpad, if_neg fun h => (or_assoc.mpr h).elim hbad hpad]
    simp only [and_comm]

/-- **The two readers agree** on every word in every mode. -/
theorem packetWord_eq (word : BitVec 32) (flags : RpcFlags) (maxPacketLen : BitVec 32) :
    packetWord word flags maxPacketLen = obfs2ParseFrameWord word flags maxPacketLen := by
  unfold packetWord obfs2ParseFrameWord
  simp only [packetCheckWord_eq]
  by_cases hquick : word &&& 0x80 ≠ 0
  · simp only [if_pos hquick, decide_eq_true hquick, if_true]
  · simp only [if_neg hquick, decide_eq_false hquick, Bool.false_eq_true, if_false]

/-! ### Words as numbers -/

/-- The low bits of a word. -/
theorem toNat_and_low {k : ℕ} (hk : k ≤ 32) (w : BitVec 32) :
    (w &&& BitVec.ofNat 32 (2 ^ k - 1)).toNat = w.toNat % 2 ^ k := by
  have hlt : 2 ^ k - 1 < 2 ^ 32 := by
    have := Nat.pow_le_pow_right (show 0 < 2 by decide) hk
    have := Nat.two_pow_pos k
    omega
  rw [BitVec.toNat_and, BitVec.toNat_ofNat, Nat.mod_eq_of_lt hlt, Nat.and_two_pow_sub_one_eq_mod]

/-- One bit of a word. -/
theorem and_bit_ne_zero {k : ℕ} (hk : k < 32) (w : BitVec 32) :
    w &&& BitVec.ofNat 32 (2 ^ k) ≠ 0 ↔ w.toNat / 2 ^ k % 2 = 1 := by
  have hlt : 2 ^ k < 2 ^ 32 := Nat.pow_lt_pow_right (by decide) hk
  rw [Ne, ← BitVec.toNat_inj, BitVec.toNat_and, BitVec.toNat_ofNat, Nat.mod_eq_of_lt hlt,
    Nat.and_two_pow, Nat.testBit_eq_decide_div_mod_eq]
  by_cases hbit : w.toNat / 2 ^ k % 2 = 1
  · simp [hbit]
  · simp [hbit]

/-- The two top bits. -/
theorem and_top_ne_zero (w : BitVec 32) : w &&& 0xc0000000 ≠ 0 ↔ 2 ^ 30 ≤ w.toNat := by
  have h31 := and_bit_ne_zero (k := 31) (by decide) w
  have h30 := and_bit_ne_zero (k := 30) (by decide) w
  have hsplit : w &&& 0xc0000000
      = (w &&& BitVec.ofNat 32 (2 ^ 31)) ||| (w &&& BitVec.ofNat 32 (2 ^ 30)) := by
    rw [← BitVec.and_or_distrib_left]
    rfl
  have hlt := w.isLt
  rw [hsplit]
  refine (not_congr BitVec.or_eq_zero_iff).trans (not_and_or.trans ?_)
  refine (or_congr h31 h30).trans ?_
  omega

/-- The sign of a word. -/
theorem slt_iff (v w : BitVec 32) : v.slt w = true ↔ v.toInt < w.toInt := by
  rw [BitVec.slt_eq_decide, decide_eq_true_iff]

theorem toInt_of_lt {w : BitVec 32} (h : w.toNat < 2 ^ 31) : w.toInt = w.toNat := by
  rw [BitVec.toInt_eq_toNat_cond, if_pos (by omega)]

theorem toInt_of_le {w : BitVec 32} (h : 2 ^ 31 ≤ w.toNat) : w.toInt = (w.toNat : ℤ) - 2 ^ 32 := by
  rw [BitVec.toInt_eq_toNat_cond, if_neg (by omega)]
  rfl

/-- The numbers between -1000 and 0 are the transport errors. -/
theorem transportError_iff (w : BitVec 32) :
    w.slt 0 = true ∧ BitVec.slt (-1000) w = true ↔ 2 ^ 32 - 1000 < w.toNat := by
  have hneg : (-1000 : BitVec 32).toInt = -1000 := by decide
  have hzero : (0 : BitVec 32).toInt = 0 := by decide
  have hlt := w.isLt
  rw [slt_iff, slt_iff, hneg, hzero]
  rcases Nat.lt_or_ge w.toNat (2 ^ 31) with h | h
  · rw [toInt_of_lt h]
    omega
  · rw [toInt_of_le h]
    omega

/-- The tests on words are those on numbers. -/
theorem obfs2CheckWord_eq (flags : RpcFlags) {maxPacketLen : ℕ} (hmax : maxPacketLen < 2 ^ 31)
    (packetLen : BitVec 32) (headerBytes : ℕ) (quickack : Bool) :
    obfs2CheckWord flags (BitVec.ofNat 32 maxPacketLen) packetLen headerBytes quickack =
      obfs2CheckLength flags maxPacketLen ⟨packetLen.toNat, headerBytes, quickack⟩ := by
  have hmaxNat : (BitVec.ofNat 32 maxPacketLen).toNat = maxPacketLen := by
    rw [BitVec.toNat_ofNat, Nat.mod_eq_of_lt (by omega)]
  have hmaxInt : (BitVec.ofNat 32 maxPacketLen).toInt = maxPacketLen := by
    rw [toInt_of_lt (by omega), hmaxNat]
  have hzero : (0 : BitVec 32).toInt = 0 := by decide
  have hlt := packetLen.isLt
  have hbad : (packetLen.sle 0 = true ∨ packetLen &&& 0xc0000000 ≠ 0) ↔
      packetLen.toNat = 0 ∨ 2 ^ 30 ≤ packetLen.toNat := by
    rw [and_top_ne_zero, BitVec.sle_eq_decide, decide_eq_true_iff, hzero]
    rcases Nat.lt_or_ge packetLen.toNat (2 ^ 31) with h | h
    · rw [toInt_of_lt h]
      omega
    · rw [toInt_of_le h]
      omega
  have hlow : packetLen &&& 3 ≠ 0 ↔ packetLen.toNat % 4 ≠ 0 := by
    rw [Ne, ← BitVec.toNat_inj]
    exact not_congr (by rw [show (packetLen &&& 3).toNat = packetLen.toNat % 4 from
      toNat_and_low (k := 2) (by decide) packetLen]; rfl)
  unfold obfs2CheckWord obfs2CheckLength
  simp only [hbad, hlow, slt_iff, hmaxInt, hzero]
  by_cases hrange : packetLen.toNat = 0 ∨ 2 ^ 30 ≤ packetLen.toNat
  · rw [if_pos hrange, if_pos hrange]
  rw [if_neg hrange, if_neg hrange]
  rw [toInt_of_lt (by omega)]
  simp only [Nat.cast_lt, Nat.cast_pos]

/-- **`obfs2_parse_frame_length` on words is that on numbers.** -/
theorem obfs2ParseFrameWord_eq (word : BitVec 32) (flags : RpcFlags) {maxPacketLen : ℕ}
    (hmax : maxPacketLen < 2 ^ 31) :
    obfs2ParseFrameWord word flags (BitVec.ofNat 32 maxPacketLen) =
      obfs2ParseFrameLength word.toNat flags maxPacketLen := by
  have hlt := word.isLt
  unfold obfs2ParseFrameWord obfs2ParseFrameLength
  simp only [obfs2CheckWord_eq flags hmax]
  cases flags.medium with
  | true =>
    have hlow : (word &&& ~~~RPC_F_QUICKACK).toNat = word.toNat % 2 ^ 31 :=
      toNat_and_low (k := 31) (by decide) word
    have hquick : word &&& RPC_F_QUICKACK ≠ 0 ↔ 2 ^ 31 ≤ word.toNat := by
      have hbit := and_bit_ne_zero (k := 31) (by decide) word
      refine hbit.trans ?_
      omega
    simp only [if_true, transportError_iff, hlow, hquick]
  | false =>
    have hquick : word &&& 0x80 ≠ 0 ↔ word.toNat / 2 ^ 7 % 2 = 1 :=
      and_bit_ne_zero (k := 7) (by decide) word
    set packetLen : BitVec 32 :=
      if decide (word &&& 0x80 ≠ 0) = true then word &&& ~~~0x80 else word with hpacketLen
    have hseven : packetLen &&& 0x7f = word &&& 0x7f := by
      rw [hpacketLen]
      split_ifs
      · rw [BitVec.and_assoc]
        rfl
      · rfl
    have hshift : packetLen >>> 8 = word >>> 8 := by
      rw [hpacketLen]
      split_ifs
      · rw [BitVec.ushiftRight_and_distrib]
        refine BitVec.eq_of_toNat_eq ?_
        have hmask : ((~~~0x80 : BitVec 32) >>> 8) = BitVec.ofNat 32 (2 ^ 24 - 1) := by decide
        rw [hmask, toNat_and_low (by decide), BitVec.toNat_ushiftRight, Nat.shiftRight_eq_div_pow]
        omega
      · rfl
    have hsevenNat : (word &&& 0x7f).toNat = word.toNat % 2 ^ 7 :=
      toNat_and_low (k := 7) (by decide) word
    have hlong : packetLen &&& 0xff = 0x7f ↔ word.toNat % 2 ^ 7 = 0x7f := by
      rw [hpacketLen]
      by_cases hbit : word &&& 0x80 ≠ 0
      · rw [if_pos (decide_eq_true hbit), BitVec.and_assoc, ← hsevenNat, ← BitVec.toNat_inj]
        rfl
      · have hnot := mt hquick.mpr hbit
        rw [if_neg (by simpa using hbit), ← BitVec.toNat_inj,
          show (word &&& 0xff).toNat = word.toNat % 2 ^ 8 from
            toNat_and_low (k := 8) (by decide) word]
        show word.toNat % 2 ^ 8 = 0x7f ↔ _
        omega
    have hshiftNat : (word >>> 8).toNat = word.toNat / 2 ^ 8 := by
      rw [BitVec.toNat_ushiftRight, Nat.shiftRight_eq_div_pow]
    have hoverlong : (word >>> 8).slt 0x7f = true ↔ word.toNat / 2 ^ 8 < 0x7f := by
      rw [slt_iff, toInt_of_lt (by omega), hshiftNat, show (0x7f : BitVec 32).toInt = 127 by decide]
      omega
    have hdouble (w : BitVec 32) (hw : w.toNat < 2 ^ 30) : (w <<< 2).toNat = w.toNat * 4 := by
      rw [BitVec.toNat_shiftLeft, Nat.shiftLeft_eq, Nat.mod_eq_of_lt (by omega)]
    simp only [Bool.false_eq_true, if_false, hlong, hshift, hseven, hoverlong]
    rw [hdouble _ (by omega), hdouble _ (by omega), hsevenNat, hshiftNat]
    simp only [hquick]

/-- A limit that is not positive is none. -/
theorem obfs2ParseFrameWord_unlimited (word : BitVec 32) (flags : RpcFlags)
    {maxPacketLen : BitVec 32} (hmax : maxPacketLen.toInt ≤ 0) :
    obfs2ParseFrameWord word flags maxPacketLen = obfs2ParseFrameWord word flags 0 := by
  have hcheck (packetLen : BitVec 32) (headerBytes : ℕ) (quickack : Bool) :
      obfs2CheckWord flags maxPacketLen packetLen headerBytes quickack =
        obfs2CheckWord flags 0 packetLen headerBytes quickack := by
    have hzero : (0 : BitVec 32).toInt = 0 := by decide
    unfold obfs2CheckWord
    simp only [slt_iff, hzero]
    rw [if_neg (c := 0 < maxPacketLen.toInt ∧ maxPacketLen.toInt < packetLen.toInt) (by omega)]
    simp only [lt_irrefl, false_and, if_false]
  unfold obfs2ParseFrameWord
  simp only [hcheck]

/-! ### The packet loop -/

section Loop

variable {W : Type*} (env : ExtServerEnv W) {c : Conn W}

/-- What the packet loop reads of its first four bytes. -/
theorem packetWord_inp (c : Conn W) :
    packetWord (BitVec.ofNat 32 (readLe32 c.inp)) c.rpc.flags (BitVec.ofNat 32 MAX_POST_SIZE) =
      obfs2ParseFrameLength (readLe32 c.inp) c.rpc.flags MAX_POST_SIZE := by
  rw [packetWord_eq, obfs2ParseFrameWord_eq _ _ (by decide), BitVec.toNat_ofNat,
    Nat.mod_eq_of_lt (readLe32_lt _)]

/-- The tests of the loop on numbers. -/
theorem obfs2CheckLength_eq (flags : RpcFlags) (packetLen headerBytes : ℕ) (quickack : Bool) :
    obfs2CheckLength flags MAX_POST_SIZE ⟨packetLen, headerBytes, quickack⟩ =
      if BadPacketLength flags packetLen then none
      else some ⟨packetLen, headerBytes, quickack⟩ := by
  have hmax : 0 < MAX_POST_SIZE ∧ MAX_POST_SIZE < packetLen ↔ MAX_POST_SIZE < packetLen :=
    and_iff_right (by decide)
  have hbad : BadPacketLength flags packetLen ↔ (packetLen = 0 ∨ 2 ^ 30 ≤ packetLen) ∨
      (flags.pad = false ∧ packetLen % 4 ≠ 0) ∨ MAX_POST_SIZE < packetLen := or_assoc.symm
  rw [obfs2CheckLength]
  dsimp only
  simp only [hmax, hbad]
  by_cases hrange : packetLen = 0 ∨ 2 ^ 30 ≤ packetLen
  · rw [if_pos hrange, if_pos (Or.inl hrange)]
  rw [if_neg hrange]
  by_cases hpad : flags.pad = false ∧ packetLen % 4 ≠ 0
  · rw [if_pos hpad, if_pos (Or.inr (Or.inl hpad))]
  rw [if_neg hpad]
  by_cases hlong : MAX_POST_SIZE < packetLen
  · rw [if_pos hlong, if_pos (Or.inr (Or.inr hlong))]
  · rw [if_neg hlong, if_neg fun h => h.elim hrange fun h => h.elim hpad hlong]

/-- The word, read as the loop reads it. -/
theorem packetWord_cases (flags : RpcFlags) (n : ℕ) :
    obfs2ParseFrameLength n flags MAX_POST_SIZE =
      if flags.medium = true ∧ 2 ^ 32 - 1000 < n then none
      else match packetLength flags n with
        | none => none
        | some (packetLen, packetLenBytes) =>
          if BadPacketLength flags packetLen then none
          else some ⟨packetLen, packetLenBytes, packetQuickack flags n⟩ := by
  unfold obfs2ParseFrameLength packetLength packetQuickack
  simp only [obfs2CheckLength_eq]
  cases flags.medium with
  | true => simp only [if_true, true_and]
  | false =>
    simp only [Bool.false_eq_true, false_and, if_false]
    by_cases hlong : n % 2 ^ 7 = 0x7f
    · by_cases hoverlong : n / 2 ^ 8 < 0x7f
      · rw [if_pos hlong, if_pos hlong, if_pos hoverlong, if_pos hoverlong]
      · rw [if_pos hlong, if_pos hlong, if_neg hoverlong, if_neg hoverlong]
    · rw [if_neg hlong, if_neg hlong]

/-- **The loop takes the word for what `packetWord` says**: where it is accepted, a packet of that
length stands behind a header of that size, with that quick-ack bit; where it is not, the
connection fails. -/
theorem parsePacket_word (c : Conn W) :
    match packetWord (BitVec.ofNat 32 (readLe32 c.inp)) c.rpc.flags
        (BitVec.ofNat 32 MAX_POST_SIZE) with
    | some r =>
      parsePacket env c =
        if c.inp.length < r.packetLen + r.headerBytes then
          .error (.ret (c.setQuickack r.quickack) (r.packetLen + r.headerBytes - c.inp.length))
        else takePacket env r.packetLen r.headerBytes (c.setQuickack r.quickack)
    | none =>
      ∃ d, (d = c ∨ d = c.setQuickack (packetQuickack c.rpc.flags (readLe32 c.inp))) ∧
        parsePacket env c = .error (.ret (failConnection d (-1)) 0) := by
  have hmedium (q : Bool) : packetLength (c.setQuickack q).rpc.flags (readLe32 c.inp)
      = packetLength c.rpc.flags (readLe32 c.inp) := rfl
  have hbad (q : Bool) (n : ℕ) : BadPacketLength (c.setQuickack q).rpc.flags n ↔
      BadPacketLength c.rpc.flags n := Iff.rfl
  rw [packetWord_inp, packetWord_cases]
  unfold parsePacket
  dsimp only
  by_cases herror : c.rpc.flags.medium = true ∧ 2 ^ 32 - 1000 < readLe32 c.inp
  · rw [if_pos herror, if_pos herror]
    exact ⟨c, Or.inl rfl, rfl⟩
  rw [if_neg herror, if_neg herror, hmedium]
  cases packetLength c.rpc.flags (readLe32 c.inp) with
  | none => exact ⟨_, Or.inr rfl, rfl⟩
  | some p =>
    obtain ⟨packetLen, packetLenBytes⟩ := p
    dsimp only
    simp only [hbad]
    by_cases hlen : BadPacketLength c.rpc.flags packetLen
    · rw [if_pos hlen, if_pos hlen]
      exact ⟨_, Or.inr rfl, rfl⟩
    · rw [if_neg hlen, if_neg hlen]
      rfl

end Loop

/-! ### The round trip -/

/-- The word that a header spells together with the bytes behind it is read as the header's
length. -/
theorem obfs2ParseFrameLength_header {flags : RpcFlags} {packet : Bytes} (h4 : 4 ≤ packet.length)
    (hlt : packet.length < 2 ^ 26)
    (hmode : flags.medium = true ∨ flags.medium = false ∧ packet.length % 4 = 0)
    (maxPacketLen : ℕ) :
    obfs2ParseFrameLength (readLe32 (packetLengthBytes flags.medium packet.length ++ packet)) flags
        maxPacketLen =
      obfs2CheckLength flags maxPacketLen
        ⟨packet.length, (packetLengthBytes flags.medium packet.length).length, false⟩ := by
  unfold obfs2ParseFrameLength packetLengthBytes
  rcases hmode with hmedium | ⟨hmedium, haligned⟩
  · simp only [hmedium, if_true]
    rw [readLe32_le32_append _ (by omega), if_neg (by omega), Nat.mod_eq_of_lt (by omega),
      decide_eq_false (by omega), le32_length]
  · simp only [hmedium, Bool.false_eq_true, if_false]
    by_cases hshort : packet.length ≤ 0x7E * 4
    · rw [if_pos hshort]
      obtain ⟨a, b, c, rest, rfl⟩ : ∃ a b c rest, packet = a :: b :: c :: rest := by
        match packet, h4 with
        | a :: b :: c :: d :: rest, _ => exact ⟨a, b, c, d :: rest, rfl⟩
      generalize (a :: b :: c :: rest).length = n at *
      have hbyte : (UInt8.ofNat (n / 4)).toNat = n / 4 := by
        rw [UInt8.toNat_ofNat']
        omega
      simp only [List.cons_append, List.nil_append, readLe32, hbyte]
      generalize hword : n / 4 + 256 * a.toNat + 65536 * b.toNat + 16777216 * c.toNat = word
      rw [if_neg (by omega), decide_eq_false (by omega), List.length_singleton]
      congr 2
      omega
    · have hor : packet.length * 2 ^ 6 ||| 0x7F = packet.length / 4 * 2 ^ 8 + 0x7F := by
        have hmul : packet.length * 2 ^ 6 = packet.length / 4 * 2 ^ 8 := by omega
        rw [hmul, Nat.mul_comm, Nat.two_pow_add_eq_or_of_lt (by decide)]
      rw [if_neg hshort, hor, readLe32_le32_append _ (by omega), if_pos (by omega),
        if_neg (by omega), decide_eq_false (by omega), le32_length]
      congr 2
      omega

/-- The padding of a packet. -/
theorem padPacket_cases {W : Type*} (env : WriterEnv W) (c : Conn W) (raw : Bytes) :
    ∃ pad w, padPacket env c raw = ({ c with world := w }, raw ++ pad) ∧ pad.length ≤ 3 ∧
      (c.rpc.flags.pad = false → pad = []) := by
  unfold padPacket
  by_cases hpad : c.rpc.flags.pad = true
  · rw [if_pos hpad]
    refine ⟨_, _, rfl, ?_, fun hno => by rw [hpad] at hno; exact nomatch hno⟩
    rw [List.length_take]
    omega
  · rw [if_neg hpad]
    exact ⟨[], c.world, by rw [List.append_nil], Nat.zero_le _, fun _ => rfl⟩

/-- The modes in which a packet gets a length: the medium one, padded or not, and the compact
one. -/
def RpcFlags.FramesPackets (flags : RpcFlags) : Prop :=
  flags.medium = true ∨ flags.medium = false ∧ flags.compact = true ∧ flags.pad = false

/-- A packet goes out behind a length. -/
theorem tcpRpcWritePacketCompact_header {W : Type*} (env : WriterEnv W) {c : Conn W} {raw : Bytes}
    (hmode : c.rpc.flags.FramesPackets) (haligned : raw.length % 4 = 0)
    (hlt : raw.length < 2 ^ 26) (htls : ¬ (c.cIsTls ∧ c.leftTlsPacketLength = -1)) :
    ∃ d pad, tcpRpcWritePacketCompact env c raw = .ok d ∧ pad.length ≤ 3 ∧
      (c.rpc.flags.pad = false → pad = []) ∧
      d.out = c.out ++ (packetLengthBytes c.rpc.flags.medium (raw ++ pad).length ++
        (raw ++ pad)) := by
  obtain ⟨pad, w, hpacket, hpad, hnone⟩ := padPacket_cases env c raw
  have hflags : ¬ ¬ (c.rpc.flags.compact = true ∨ c.rpc.flags.medium = true) := by
    rcases hmode with hmedium | ⟨-, hcompact, -⟩
    · exact not_not.mpr (Or.inr hmedium)
    · exact not_not.mpr (Or.inl hcompact)
  have hfits : ¬ 2 ^ 26 ≤ (raw ++ pad).length := by
    rw [List.length_append]
    omega
  have halign : ¬ (c.rpc.flags.pad = false ∧ (raw ++ pad).length % 4 ≠ 0) := by
    rintro ⟨hno, hlow⟩
    rw [hnone hno, List.append_nil] at hlow
    exact hlow haligned
  refine ⟨({ c with world := w } : Conn W).putOut
    (packetLengthBytes c.rpc.flags.medium (raw ++ pad).length ++ (raw ++ pad)), pad, ?_, hpad,
    hnone, rfl⟩
  rw [tcpRpcWritePacketCompact, if_neg (by omega), if_neg htls, if_neg hflags, hpacket]
  dsimp only
  rw [if_neg hfits, if_neg halign]

/-- **The length read back**, with a limit or without: it is that of the packet and its padding,
behind a header of that size, and what is left of the packet without its last bytes beyond a
multiple of four is the message. -/
structure ReadBack (flags : RpcFlags) (raw header packet : Bytes) : Prop where
  padding : raw <+: packet ∧ packet.length ≤ raw.length + 3
  word : ∀ maxPacketLen : BitVec 32,
    obfs2ParseFrameWord (BitVec.ofNat 32 (readLe32 (header ++ packet))) flags maxPacketLen =
      if 0 < maxPacketLen.toInt ∧ maxPacketLen.toInt < packet.length then none
      else some ⟨packet.length, header.length, false⟩
  message : packet.take (packet.length / 4 * 4) = raw ∧ packetMsg flags packet.length packet = raw

theorem readBack_packetLengthBytes {flags : RpcFlags} (hmode : flags.FramesPackets)
    {raw pad : Bytes} (haligned : raw.length % 4 = 0) (hpos : 0 < raw.length)
    (hlt : raw.length < 2 ^ 26) (hpad : pad.length ≤ 3) (hnone : flags.pad = false → pad = []) :
    ReadBack flags raw (packetLengthBytes flags.medium (raw ++ pad).length) (raw ++ pad) := by
  have hlen : (raw ++ pad).length = raw.length + pad.length := List.length_append
  have hlow : flags.pad = false → (raw ++ pad).length % 4 = 0 := by
    intro hno
    rw [hnone hno, List.append_nil]
    exact haligned
  have hmedium : flags.medium = true ∨ flags.medium = false ∧ (raw ++ pad).length % 4 = 0 :=
    hmode.imp_right fun h => ⟨h.1, hlow h.2.2⟩
  have htake : (raw ++ pad).take ((raw ++ pad).length / 4 * 4) = raw := by
    have hn : (raw ++ pad).length / 4 * 4 = raw.length := by omega
    rw [hn, List.take_left]
  have hcheck (maxPacketLen : ℕ) :
      obfs2ParseFrameLength
          (readLe32 (packetLengthBytes flags.medium (raw ++ pad).length ++ (raw ++ pad))) flags
          maxPacketLen =
        if 0 < maxPacketLen ∧ maxPacketLen < (raw ++ pad).length then none
        else some ⟨(raw ++ pad).length,
          (packetLengthBytes flags.medium (raw ++ pad).length).length, false⟩ := by
    rw [obfs2ParseFrameLength_header (by omega) (by omega) hmedium, obfs2CheckLength]
    dsimp only
    rw [if_neg (by omega), if_neg fun h => h.2 (hlow h.1)]
  have hword (maxPacketLen : ℕ) (hmax : maxPacketLen < 2 ^ 31) :=
    obfs2ParseFrameWord_eq (BitVec.ofNat 32 (readLe32
      (packetLengthBytes flags.medium (raw ++ pad).length ++ (raw ++ pad)))) flags hmax
  simp only [BitVec.toNat_ofNat, Nat.mod_eq_of_lt (readLe32_lt _), hcheck] at hword
  refine ⟨⟨List.prefix_append raw pad, by omega⟩, fun maxPacketLen => ?_, htake, ?_⟩
  · by_cases hmax : maxPacketLen.toInt ≤ 0
    · rw [obfs2ParseFrameWord_unlimited _ _ hmax]
      refine (hword 0 (by decide)).trans ?_
      rw [if_neg (by omega), if_neg (by omega)]
    · have hlt31 : maxPacketLen.toNat < 2 ^ 31 := by
        by_contra hbig
        have hneg := toInt_of_le (Nat.le_of_not_lt hbig)
        have := maxPacketLen.isLt
        omega
      have hofNat : maxPacketLen = BitVec.ofNat 32 maxPacketLen.toNat := by simp
      rw [toInt_of_lt hlt31]
      conv_lhs => rw [hofNat]
      rw [hword _ hlt31]
      simp only [Nat.cast_pos, Nat.cast_lt]
  · rw [packetMsg]
    split_ifs with hno
    · exact htake
    · rw [hnone (by simpa using hno), List.append_nil]

/-- **Packet headers**: a message goes out behind a header that is read back, and both readers
take every word alike. -/
theorem packetHeaders_agree {W : Type*} :
    (∀ (env : WriterEnv W) (c : Conn W) (raw : Bytes), c.rpc.flags.FramesPackets →
      raw.length % 4 = 0 → 0 < raw.length → raw.length < 2 ^ 26 →
      ¬ (c.cIsTls ∧ c.leftTlsPacketLength = -1) →
        ∃ d header packet, tcpRpcWritePacketCompact env c raw = .ok d ∧
          d.out = c.out ++ (header ++ packet) ∧ ReadBack c.rpc.flags raw header packet) ∧
      ∀ (word : BitVec 32) (flags : RpcFlags) (maxPacketLen : BitVec 32),
        packetWord word flags maxPacketLen = obfs2ParseFrameWord word flags maxPacketLen := by
  refine ⟨fun env c raw hmode haligned hpos hlt htls => ?_, packetWord_eq⟩
  obtain ⟨d, pad, hwrite, hpad, hnone, hout⟩ :=
    tcpRpcWritePacketCompact_header env hmode haligned hlt htls
  exact ⟨d, _, _, hwrite, hout,
    readBack_packetLengthBytes hmode haligned hpos hlt hpad hnone⟩

/-- A message of four bytes in the padded mode, with two bytes of padding. -/
theorem packetHeaders_agree_padded :
    ∃ d header packet,
      tcpRpcWritePacketCompact (W := Unit) ⟨fun w => (2, w), fun w => (0, w), fun _ _ => 0⟩
          { Conn.allocated ⟨0, [], 0, false⟩ 443 () with
            rpc := ⟨⟨false, true, true, false, false⟩, 0, 0, 0, 0, 0⟩ } [1, 2, 3, 4] = .ok d ∧
        d.out = [] ++ (header ++ packet) ∧
        ReadBack ⟨false, true, true, false, false⟩ [1, 2, 3, 4] header packet :=
  packetHeaders_agree.1 _ _ _ (Or.inl rfl) rfl (by decide) (by decide) (by decide)

end Server
end Teleproto3
