/-
# Result codes and constants of the protocol library

`t3_result_t` and the constants of `lib/include/t3.h` that the modelled
functions use.
-/

import Mathlib.Algebra.Order.Ring.Int
import Mathlib.Data.List.Basic

namespace Teleproto3
namespace Wire

/-- `t3_result_t` (`lib/include/t3.h`, lines 115-133): the codes the modelled functions
return. -/
inductive T3Result
  | ok
  | invalidArg
  | malformed
  | unsupportedVersion
  | rng
  | hostEmpty
  | hostInvalid
  | keyInvalid
  | bufTooSmall
  | hostNonAscii
  | clockBackwards
  | pathMissingLeadingSlash
  | pathTrailingSlash
  | pathPercentEncoded
  | pathEmptySegment
  | pathNonAscii
  | internal
  deriving DecidableEq, Repr

/-- `SIZE_MAX` of a 64-bit build. -/
def SIZE_MAX : ℕ := 2 ^ 64 - 1

/-- `T3_PADDING_MARKER`: the first byte of a padding frame. -/
def T3_PADDING_MARKER : UInt8 := 0xFE

/-- `T3_FLAG_PADDING`: bit 0 of the Session Header's flags. -/
def T3_FLAG_PADDING : ℕ := 0x0001

/-- `T3_CMD_MTPROTO_PASSTHROUGH`. -/
def T3_CMD_MTPROTO_PASSTHROUGH : UInt8 := 0x01

/-- `T3_CMD_BENCH`. -/
def T3_CMD_BENCH : UInt8 := 0x04

end Wire
end Teleproto3
