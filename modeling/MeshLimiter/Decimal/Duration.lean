import MeshLimiter.Decimal.Integer
/-!
# Durations as text

A length of time in the largest unit that it fills: whole milliseconds below a second, otherwise
seconds with the thousandths after a point, trailing zeros left out. No time at all is shown in
nanoseconds.
-/

namespace MeshLimiter.Decimal

/-- The digits after the point for a number of thousandths. -/
def thousandths (n : Nat) : List Char :=
  ((paddedText 3 n).toList.reverse.dropWhile (· = '0')).reverse

/-- A number of milliseconds as a length of time. -/
def millisecondsText (ms : Nat) : String :=
  if ms = 0 then "0ns"
  else if ms < 1000 then natText ms ++ "ms"
  else
    let fraction := thousandths (ms % 1000)
    natText (ms / 1000) ++ (if fraction.isEmpty then "" else "." ++ String.ofList fraction) ++ "s"

end MeshLimiter.Decimal
