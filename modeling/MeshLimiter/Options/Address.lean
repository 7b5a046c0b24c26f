import MeshLimiter.Decimal.Integer
/-!
# Socket addresses

A host and a port: four numbers with points between them, or in square brackets eight groups of
hexadecimal digits with colons between them. One run of groups that are zero may be left out, and
the last two groups may be written as four numbers.
-/

namespace MeshLimiter

/-- A host. -/
inductive HostAddress where
  | four (numbers : List Nat)
  /-- Eight groups, and the number of a scope. -/
  | six (groups : List Nat) (scope : Nat)
deriving DecidableEq, Repr

/-- Where to listen. -/
structure SocketAddress where
  host : HostAddress
  port : UInt16
deriving DecidableEq, Repr

namespace SocketAddress

/-- Reads all digits at the start as a number below a bound. At most `width` digits are taken; a
zero before another digit is refused unless `padded`. -/
def number? (base : Nat) (width : Option Nat) (padded : Bool) (bound : Nat) (cs : List Char) :
    Option (Nat × List Char) := do
  let digits := cs.takeWhile fun c => (Decimal.digitValue? base c).isSome
  let n ← Decimal.readDigits? base digits
  if n < bound && width.all (digits.length ≤ ·) &&
      (padded || digits.length = 1 || digits.head? ≠ some '0') then
    some (n, cs.drop digits.length)
  else none

def mark? (c : Char) : List Char → Option (List Char)
  | d :: cs => if c = d then some cs else none
  | [] => none

/-- Reads four numbers with points between them. -/
def four? (cs : List Char) : Option (List Nat × List Char) := do
  let part := number? 10 (some 3) false 256
  let (a, cs) ← part cs
  let (b, cs) ← part (← mark? '.' cs)
  let (c, cs) ← part (← mark? '.' cs)
  let (d, cs) ← part (← mark? '.' cs)
  return ([a, b, c, d], cs)

/-- Passes over the colon before every group but the first. -/
def separator? (first : Bool) (cs : List Char) : Option (List Char) :=
  if first then some cs else mark? ':' cs

/-- Reads at most `limit` groups; whether the last two were written as four numbers, and what
follows. -/
def groups : (limit : Nat) → (first : Bool) → List Char → List Nat × Bool × List Char
  | 0, _, cs => ([], false, cs)
  | limit + 1, first, cs =>
    match if limit = 0 then none else (separator? first cs).bind four? with
    | some ([a, b, c, d], rest) => ([a * 256 + b, c * 256 + d], true, rest)
    | _ =>
      match (separator? first cs).bind (number? 16 (some 4) true 0x10000) with
      | some (g, rest) =>
        let (gs, four, rest) := groups limit false rest
        (g :: gs, four, rest)
      | none => ([], false, cs)

/-- Reads eight groups, or fewer with a double colon for those that are zero. -/
def six? (cs : List Char) : Option (List Nat × List Char) := do
  let (front, four, rest) := groups 8 true cs
  if front.length = 8 then return (front, rest)
  if four then none
  let (back, _, rest) := groups (7 - front.length) true (← mark? ':' (← mark? ':' rest))
  return (front ++ List.replicate (8 - front.length - back.length) 0 ++ back, rest)

/-- Reads the number of a scope, after a percent sign. -/
def scope (cs : List Char) : Nat × List Char :=
  ((mark? '%' cs).bind (number? 10 none true (Nat.pow 2 32))).getD (0, cs)

def host? (cs : List Char) : Option (HostAddress × List Char) :=
  match four? cs with
  | some (numbers, rest) => some (.four numbers, rest)
  | none => do
    let (groups, rest) ← six? (← mark? '[' cs)
    let (scope, rest) := scope rest
    return (.six groups scope, ← mark? ']' rest)

def ofText? (text : String) : Option SocketAddress := do
  let (host, rest) ← host? text.toList
  let (port, rest) ← number? 10 none true (Nat.pow 2 16) (← mark? ':' rest)
  if rest.isEmpty then some { host, port := UInt16.ofNat port } else none

end SocketAddress

end MeshLimiter
