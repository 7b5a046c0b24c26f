import MeshLimiter.Decimal.Integer
import MeshLimiter.Decimal.Nearest
/-!
# Number literals

The decimal literals: digits with at most one point and at least one digit, and an optional
exponent; a value may also be signed, or be one of the names of the infinities and of the undefined
number. A literal reads as the nearest double-precision number.
-/

namespace MeshLimiter.Decimal

/-- A literal without sign: the digits of both sides of the point as one number, scaled by a power
of ten. -/
structure Literal where
  digits : List Char
  exponent : Int
deriving DecidableEq, Repr

/-- An exponent after its mark: an optional sign and at least one digit. -/
def readExponent? (cs : List Char) : Option Int :=
  let (sign, ds) : Int × List Char :=
    match cs with
    | '+' :: ds => (1, ds)
    | '-' :: ds => (-1, ds)
    | ds => (1, ds)
  if ds.isEmpty || !ds.all Char.isDigit then none else some (sign * digitsValue ds)

/-- What follows the digits of a literal: nothing, or a mark and an exponent. -/
def readScale? : List Char → Option Int
  | [] => some 0
  | c :: cs => if c = 'e' ∨ c = 'E' then readExponent? cs else none

/-- Reads a literal that takes up the whole text. -/
def Literal.read? (cs : List Char) : Option Literal :=
  let whole := cs.takeWhile Char.isDigit
  let (places, rest) : List Char × List Char :=
    match cs.dropWhile Char.isDigit with
    | '.' :: rest => (rest.takeWhile Char.isDigit, rest.dropWhile Char.isDigit)
    | rest => ([], rest)
  if whole.isEmpty && places.isEmpty then none
  else (readScale? rest).map fun e => ⟨whole ++ places, e - places.length⟩

/-- The nearest number. A size beyond every finite number, or below half the least one, is decided
from the place of the leading digit. -/
def Literal.toFloat (l : Literal) : Float :=
  let ds := l.digits.dropWhile (· == '0')
  let top := l.exponent + ds.length
  if ds.isEmpty || top < -330 then 0.0
  else if top > 310 then 1.0 / 0.0
  else nearestScaled (digitsValue ds) l.exponent

/-- The names of an infinite and of the undefined number, in any case. -/
def readName? (cs : List Char) : Option Float :=
  let name := cs.map Char.toLower
  if name = "inf".toList ∨ name = "infinity".toList then some (1.0 / 0.0)
  else if name = "nan".toList then some (0.0 / 0.0)
  else none

def readUnsigned? (cs : List Char) : Option Float :=
  match readName? cs with
  | some x => some x
  | none => (Literal.read? cs).map Literal.toFloat

def readFloat? (s : String) : Option Float :=
  match s.toList with
  | '-' :: cs => (readUnsigned? cs).map (- ·)
  | '+' :: cs => readUnsigned? cs
  | cs => readUnsigned? cs

end MeshLimiter.Decimal
