/-!
# Binary floating point, taken apart

A double-precision number as sign, whole mantissa and power of two, and the operations that need the
number exactly: the remainder of a division.
-/

namespace MeshLimiter.Decimal

/-- What a double-precision number stands for. -/
inductive Binary64 where
  | nan
  | infinite (negative : Bool)
  /-- `mantissa * 2 ^ exponent`, with a sign that zero has as well. -/
  | finite (negative : Bool) (mantissa : Nat) (exponent : Int)
deriving DecidableEq, Repr

namespace Binary64

/-- Reads the three fields of the 64 bits: subnormal numbers have no hidden leading one. -/
def ofBits (bits : UInt64) : Binary64 :=
  let n := bits.toNat
  let negative := n / Nat.pow 2 63 == 1
  let biased : Nat := n / Nat.pow 2 52 % Nat.pow 2 11
  let fraction := n % Nat.pow 2 52
  if biased == 2047 then
    if fraction == 0 then infinite negative else nan
  else if biased == 0 then finite negative fraction (-1074)
  else finite negative (Nat.pow 2 52 + fraction) ((biased : Int) - 1075)

def ofFloat (x : Float) : Binary64 :=
  ofBits x.toBits

end Binary64

/-- Whether a number is neither infinite nor undefined. -/
def isFinite (x : Float) : Bool :=
  match Binary64.ofFloat x with
  | .finite _ _ _ => true
  | _ => false

/-- The remainder of the division whose quotient is cut toward zero. It is exact, has the sign of
the dividend, and is undefined for an infinite dividend and for a zero divisor. -/
def remainder (x y : Float) : Float :=
  match Binary64.ofFloat x, Binary64.ofFloat y with
  | .finite negative m p, .finite _ k q =>
    if k == 0 then 0.0 / 0.0
    else
      let unit := min p q
      let r := (m <<< (p - unit).toNat) % (k <<< (q - unit).toNat)
      let size := (Float.ofNat r).scaleB unit
      if negative then -size else size
  | .finite _ _ _, .infinite _ => x
  | _, _ => 0.0 / 0.0

end MeshLimiter.Decimal
