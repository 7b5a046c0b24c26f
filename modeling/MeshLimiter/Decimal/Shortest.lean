import MeshLimiter.Decimal.Binary64
import MeshLimiter.Decimal.Integer
/-!
# The fewest digits that read back

Among the decimals that round to a given binary number, the ones with the fewest digits, and of
these the nearest; a tie goes to the larger. The text is positional for every size, without an
exponent and without a fraction of zero.
-/

namespace MeshLimiter.Decimal

/-- A decimal without sign: `digits * 10 ^ exponent`. -/
structure Scaled where
  digits : Nat
  exponent : Int
deriving DecidableEq, Repr

/-- The numbers that round to `mantissa * 2 ^ exponent`, over the common denominator `den`: they
reach from `lo` to `hi`, ends included if `closed`, around `mid`. -/
structure RoundingRange where
  lo : Nat
  mid : Nat
  hi : Nat
  den : Nat
  closed : Bool

/-- Half the gap to each neighbour. Below a power of two the gap is half as wide, unless the numbers
are subnormal; the ends belong to the range of an even mantissa. -/
def RoundingRange.of (mantissa : Nat) (exponent : Int) : RoundingRange :=
  let e := exponent - 2
  let up := Nat.pow 2 e.toNat
  let narrow := mantissa == Nat.pow 2 52 && exponent > -1074
  { lo := (4 * mantissa - if narrow then 1 else 2) * up
    mid := 4 * mantissa * up
    hi := (4 * mantissa + 2) * up
    den := Nat.pow 2 (-e).toNat
    closed := mantissa % 2 == 0 }

/-- A fraction: `num / den`. -/
structure Fraction where
  num : Nat
  den : Nat

/-- The value `n * 10 ^ k` as a fraction. -/
def Fraction.tens (n : Nat) (k : Int) : Fraction :=
  { num := n * Nat.pow 10 k.toNat, den := Nat.pow 10 (-k).toNat }

/-- Whether `n * 10 ^ k` rounds to the number of the range. -/
def RoundingRange.holds (r : RoundingRange) (n : Nat) (k : Int) : Bool :=
  let f := Fraction.tens n k
  let x := f.num * r.den
  if r.closed then r.lo * f.den ≤ x && x ≤ r.hi * f.den
  else r.lo * f.den < x && x < r.hi * f.den

/-- Whether `(n + 1) * 10 ^ k` is at least as near to the number as `n * 10 ^ k`. -/
def RoundingRange.upperIsNearer (r : RoundingRange) (n : Nat) (k : Int) : Bool :=
  let f := Fraction.tens (2 * n + 1) k
  f.num * r.den ≤ 2 * r.mid * f.den

/-- The neighbour below on the grid of multiples of `10 ^ k`. -/
def RoundingRange.floorAt (r : RoundingRange) (k : Int) : Nat :=
  let f := Fraction.tens 1 k
  r.mid * f.den / (r.den * f.num)

/-- The decimal of the grid `10 ^ k` that reads back, if one of the two neighbours does. -/
def RoundingRange.onGrid? (r : RoundingRange) (k : Int) : Option Scaled :=
  let n := r.floorAt k
  match r.holds n k, r.holds (n + 1) k with
  | true, true => some ⟨if r.upperIsNearer n k then n + 1 else n, k⟩
  | true, false => some ⟨n, k⟩
  | false, true => some ⟨n + 1, k⟩
  | false, false => none

/-- The first power of ten above the number, tried upward from `d`. -/
def RoundingRange.topFrom (r : RoundingRange) : Nat → Int → Int
  | 0, d => d
  | fuel + 1, d =>
    let f := Fraction.tens 1 d
    if r.mid * f.den < f.num * r.den then d else r.topFrom fuel (d + 1)

/-- The exponent of the first power of ten above the number. -/
def RoundingRange.top (r : RoundingRange) : Int :=
  let bits : Int := (Nat.log2 r.mid : Int) - Nat.log2 r.den
  r.topFrom 8 (bits * 30103 / 100000 - 2)

/-- Drops the zeros at the end of the digits. -/
def Scaled.trimZeros : Nat → Scaled → Scaled
  | 0, s => s
  | fuel + 1, s =>
    if s.digits != 0 && s.digits % 10 == 0 then trimZeros fuel ⟨s.digits / 10, s.exponent + 1⟩
    else s

/-- The shortest decimal of a number above zero: the grids are tried from the coarsest. Seventeen
digits always read back. -/
def shortest (mantissa : Nat) (exponent : Int) : Scaled :=
  let r := RoundingRange.of mantissa exponent
  let d := r.top
  let found := (List.range 18).findSome? fun (n : Nat) => r.onGrid? (d - n)
  (found.getD ⟨0, 0⟩).trimZeros 20

/-- Positional notation: zeros up to the point, then as many places as there are digits. -/
def Scaled.positional (s : Scaled) : String :=
  let ds := natDigits s.digits
  if 0 ≤ s.exponent then String.ofList (ds ++ List.replicate s.exponent.toNat '0')
  else
    let places := (-s.exponent).toNat
    let full := List.replicate (places + 1 - ds.length) '0' ++ ds
    let whole := full.length - places
    String.ofList (full.take whole ++ '.' :: full.drop whole)

/-- The text of a number: the fewest digits that read back, in positional notation. -/
def floatText (x : Float) : String :=
  match Binary64.ofFloat x with
  | .nan => "NaN"
  | .infinite negative => if negative then "-inf" else "inf"
  | .finite negative m q =>
    let size := if m == 0 then "0" else (shortest m q).positional
    if negative then "-" ++ size else size

end MeshLimiter.Decimal
