import MeshLimiter.Work.Delay
/-!
# Delays between attempts

The delay before the next attempt doubles with each failure in a row, from the least delay up to the
greatest. Failures are counted, and their powers of two taken, in words that stop at their largest
value.
-/

namespace MeshLimiter

/-- The least and the greatest delay. -/
structure Backoff where
  least : Delay := .ofMillis 1000
  greatest : Delay := .ofMillis 60000
deriving DecidableEq, Repr

namespace Backoff

/-- The largest factor, and the largest count of failures. -/
def limit : UInt32 := 4294967295

/-- The factor after some failures in a row. -/
def factor (failures : UInt32) : UInt32 :=
  if failures < 32 then 1 <<< failures else limit

/-- The delay after some earlier failures in a row. -/
def delay (b : Backoff) (failures : UInt32) : Delay :=
  min (b.least.times (factor failures)) (max b.greatest b.least)

/-- One more failure. -/
def next (failures : UInt32) : UInt32 :=
  if failures < limit then failures + 1 else limit

end Backoff

end MeshLimiter
