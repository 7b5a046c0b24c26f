/-!
# The nearest number

The double-precision number that is nearest to a fraction; of two that are equally near, the one
with the even mantissa. The bits of numbers above zero count them in order, so that a mantissa that
is rounded up to the next power of two carries into the exponent by itself.
-/

namespace MeshLimiter.Decimal

/-- A quotient rounded to a whole number, halves to the even neighbour. -/
def roundedQuotient (num den : Nat) : Nat :=
  let below := num / den
  let twice := 2 * (num % den)
  if den < twice || (twice = den && below % 2 = 1) then below + 1 else below

def leastExponent : Int := -1074

/-- The exponent for which a fraction above zero has a mantissa of 53 bits, if that is not below the
least one. -/
def exponentOf (num den : Nat) : Int :=
  let e : Int := (Nat.log2 num : Int) - Nat.log2 den - 53
  let full := num * Nat.pow 2 (-e).toNat ≥ Nat.pow 2 53 * (den * Nat.pow 2 e.toNat)
  max leastExponent (if full then e + 1 else e)

/-- The bits of the nearest number that is not below zero. -/
def nearestBits (num den : Nat) : Nat :=
  if num = 0 then 0
  else
    let e := exponentOf num den
    let mantissa := roundedQuotient (num * Nat.pow 2 (-e).toNat) (den * Nat.pow 2 e.toNat)
    min (0x7FF * Nat.pow 2 52) ((e - leastExponent).toNat * Nat.pow 2 52 + mantissa)

def nearest (num den : Nat) : Float :=
  Float.ofBits (UInt64.ofNat (nearestBits num den))

/-- The number nearest to a whole number times a power of ten. -/
def nearestScaled (n : Nat) (exponent : Int) : Float :=
  nearest (n * Nat.pow 10 exponent.toNat) (Nat.pow 10 (-exponent).toNat)

end MeshLimiter.Decimal
