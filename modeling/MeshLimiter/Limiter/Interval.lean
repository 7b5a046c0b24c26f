import MeshLimiter.Decimal.Integer
/-!
# Fill intervals

How long a token bucket takes to fill: seconds and nanoseconds, as written in a limiter.
-/

namespace MeshLimiter

/-- A span of time as a limiter gives it. -/
structure FillInterval where
  seconds : Int64 := 0
  nanos : Int32 := 0
deriving DecidableEq, Repr

/-- A span of time that is not negative; the nanoseconds stay below a billion. -/
structure Duration where
  secs : Nat
  nanos : Nat
deriving DecidableEq, Repr

namespace FillInterval

/-- The span in whole and partial seconds, unless it is negative; nanoseconds of a billion and more
are carried into the seconds. -/
def duration? (i : FillInterval) : Option Duration :=
  if i.seconds < 0 || i.nanos < 0 then none
  else
    let nanos := i.nanos.toInt.toNat
    some { secs := i.seconds.toInt.toNat + nanos / Nat.pow 10 9, nanos := nanos % Nat.pow 10 9 }

/-- The interval in seconds, with as few groups of three places as show all of it. -/
def text (i : FillInterval) : String :=
  let nanos := i.nanos.toInt.natAbs
  let places :=
    if nanos == 0 then ""
    else if nanos % Nat.pow 10 6 == 0 then "." ++ Decimal.paddedText 3 (nanos / Nat.pow 10 6)
    else if nanos % Nat.pow 10 3 == 0 then "." ++ Decimal.paddedText 6 (nanos / Nat.pow 10 3)
    else "." ++ Decimal.paddedText 9 nanos
  Decimal.intText i.seconds.toInt ++ places ++ "s"

end FillInterval

end MeshLimiter
