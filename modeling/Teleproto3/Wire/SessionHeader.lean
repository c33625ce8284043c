/-
# The Session Header

The four bytes a Type3 session starts with, `lib/src/t3_session_header.c`: a command, a
version, and 16 bits of flags, the low byte first.  What the writer emits the parser
accepts (`t3HeaderParse_serialise`), and what the parser accepts the writer emits
(`t3HeaderSerialise_parse`): version 1, one of the two known commands, no flag set.
-/

import Teleproto3.Lib.Bytes
import Teleproto3.Wire.Result

namespace Teleproto3
namespace Wire

open Lib

/-- `t3_header_t`. -/
structure T3Header where
  commandType : UInt8
  version : UInt8
  flags : ℕ
  deriving DecidableEq, Repr

/-- `t3_cmd_known`. -/
def T3CmdKnown (c : UInt8) : Prop := c = T3_CMD_MTPROTO_PASSTHROUGH ∨ c = T3_CMD_BENCH

instance (c : UInt8) : Decidable (T3CmdKnown c) := by
  unfold T3CmdKnown
  infer_instance

/-- `t3_header_parse` on the first four bytes of `buf`. -/
def t3HeaderParse (buf : Bytes) : Except T3Result T3Header :=
  let cmd := buf.getD 0 0
  let version := buf.getD 1 0
  let flags := (buf.getD 2 0).toNat + 256 * (buf.getD 3 0).toNat
  if cmd = 0x00 ∨ cmd = 0xFF then .error .malformed
  else if version = 0x00 then .error .malformed
  else if T3CmdKnown cmd ∧ version > 0x01 then .error .unsupportedVersion
  else if ¬ T3CmdKnown cmd ∧ version = 0x01 then .error .malformed
  else if ¬ T3CmdKnown cmd ∧ version > 0x01 then .error .unsupportedVersion
  else if flags ≠ 0 then .error .malformed
  else .ok ⟨cmd, version, flags⟩

/-- `t3_header_serialise`. -/
def t3HeaderSerialise (h : T3Header) : Except T3Result Bytes :=
  if ¬ T3CmdKnown h.commandType then .error .malformed
  else if h.version ≠ 0x01 then .error .malformed
  else if h.flags ≠ 0 then .error .malformed
  else .ok [h.commandType, h.version, UInt8.ofNat h.flags, UInt8.ofNat (h.flags / 256)]

/-- **What the parser accepts:** a known command, version 1, and no flag. -/
theorem t3HeaderParse_ok_iff (buf : Bytes) (h : T3Header) :
    t3HeaderParse buf = .ok h ↔
      T3CmdKnown (buf.getD 0 0) ∧ buf.getD 1 0 = 0x01 ∧ buf.getD 2 0 = 0 ∧ buf.getD 3 0 = 0 ∧
        h = ⟨buf.getD 0 0, 0x01, 0⟩ := by
  unfold t3HeaderParse
  generalize buf.getD 0 0 = cmd
  generalize buf.getD 1 0 = version
  generalize buf.getD 2 0 = lo
  generalize buf.getD 3 0 = hi
  have hzero (b : UInt8) : b.toNat = 0 ↔ b = 0 := ⟨fun hb => UInt8.toNat_inj.mp hb, fun hb => by rw [hb]; rfl⟩
  constructor
  · intro hp
    simp only at hp
    split_ifs at hp with h1 h2 h3 h4 h5 h6
    cases hp
    have hflags : lo.toNat + 256 * hi.toNat = 0 := not_not.mp h6
    have hversion : version = 0x01 := by
      have hle : ¬ version > 0x01 := fun hgt =>
        (em (T3CmdKnown cmd)).elim (fun hk => h3 ⟨hk, hgt⟩) fun hk => h5 ⟨hk, hgt⟩
      rw [gt_iff_lt, UInt8.lt_iff_toNat_lt] at hle
      have h0 : version.toNat ≠ 0 := fun h => h2 ((hzero version).mp h)
      exact UInt8.toNat_inj.mp (Nat.le_antisymm (not_lt.mp hle) (Nat.pos_of_ne_zero h0))
    have hknown : T3CmdKnown cmd := not_not.mp fun hk => h4 ⟨hk, hversion⟩
    refine ⟨hknown, hversion, (hzero lo).mp (by omega), (hzero hi).mp (by omega), ?_⟩
    rw [hversion, hflags]
  · rintro ⟨hknown, rfl, rfl, rfl, rfl⟩
    have hcmd : ¬ (cmd = 0x00 ∨ cmd = 0xFF) := by
      rcases hknown with rfl | rfl <;> decide
    rw [if_neg hcmd, if_neg (by decide), if_neg (fun h => absurd h.2 (by decide)),
      if_neg (fun h => h.1 hknown), if_neg (fun h => h.1 hknown), if_neg (by decide)]
    rfl

/-- **The writer's headers parse.** -/
theorem t3HeaderParse_serialise {h : T3Header} {buf : Bytes} (hs : t3HeaderSerialise h = .ok buf) :
    buf.length = 4 ∧ t3HeaderParse buf = .ok h := by
  unfold t3HeaderSerialise at hs
  split_ifs at hs with h1 h2 h3
  cases hs
  obtain ⟨cmd, version, flags⟩ := h
  simp only [not_not] at h1 h2 h3
  subst h2 h3
  have hhi : UInt8.ofNat (0 / 256) = 0 := by decide
  exact ⟨rfl, (t3HeaderParse_ok_iff _ _).mpr ⟨h1, rfl, rfl, hhi, rfl⟩⟩

/-- **The parser's headers serialise**, to the four bytes they were read from. -/
theorem t3HeaderSerialise_parse {buf : Bytes} {h : T3Header} (hlen : buf.length = 4)
    (hp : t3HeaderParse buf = .ok h) : t3HeaderSerialise h = .ok buf := by
  obtain ⟨hknown, h1, h2, h3, rfl⟩ := (t3HeaderParse_ok_iff buf h).mp hp
  rcases buf with _ | ⟨a, _ | ⟨b, _ | ⟨c, _ | ⟨d, _ | ⟨e, rest⟩⟩⟩⟩⟩ <;>
    simp only [List.length_cons, List.length_nil] at hlen <;> try omega
  simp only [List.getD_cons_zero, List.getD_cons_succ] at h1 h2 h3 hknown
  subst h1 h2 h3
  have hhi : UInt8.ofNat (0 / 256) = 0 := by decide
  simp only [t3HeaderSerialise, List.getD_cons_zero, hknown, not_true_eq_false, ne_eq, if_false,
    hhi]

end Wire
end Teleproto3
