import MeshLimiter.Decimal.Binary64
import MeshLimiter.Template.Token
/-!
# Evaluating an expression

Expressions have six levels of binding, from the loosest:

    or      = and ( "||" and )*
    and     = compare ( "&&" compare )*
    compare = sum ( ( "==" | "!=" | "<" | "<=" | ">" | ">=" ) sum )?
    sum     = product ( ( "+" | "-" ) product )*
    product = unary ( ( "*" | "/" | "%" ) unary )*
    unary   = ( "!" | "-" | "+" ) unary | primary
    primary = number | "true" | "false" | "(" or ")"

The value is found in one pass over the tokens, so of two faults the one met first is reported. Each
level is a function on the tokens that returns its value and the tokens after it, and is built from
the level that binds tighter; only a parenthesis leads back to the loosest level.
-/

namespace MeshLimiter.Template

/-- A value of an expression. -/
inductive Value where
  | number (value : Float)
  | truth (value : Bool)
deriving DecidableEq, Repr

def Value.asNumber : Value → Except Fault Float
  | number x => .ok x
  | truth _ => .error (.type .numeric)

def Value.asTruth : Value → Except Fault Bool
  | truth b => .ok b
  | number _ => .error (.type .boolean)

/-- A level of binding: the value at the start of the tokens and the tokens after it. -/
abbrev Level := List Token → Except Fault (Value × List Token)

/-- Arithmetic on two numbers; a division by zero has no result. Other operators give none. -/
def Op.arithmetic : Op → Option (Float → Float → Except Fault Float)
  | add => some fun a b => .ok (a + b)
  | sub => some fun a b => .ok (a - b)
  | mul => some fun a b => .ok (a * b)
  | div => some fun a b => if b == 0.0 then .error .divideByZero else .ok (a / b)
  | rem => some fun a b => if b == 0.0 then .error .divideByZero else .ok (Decimal.remainder a b)
  | _ => none

def Op.isSum : Op → Bool
  | add | sub => true
  | _ => false

/-- The operators that bind as products do. -/
def Op.isProduct : Op → Bool
  | mul | div | rem => true
  | _ => false

def Op.compareNumbers? : Op → Option (Float → Float → Bool)
  | eq => some (· == ·)
  | ne => some (· != ·)
  | lt => some fun a b => decide (a < b)
  | le => some fun a b => decide (a ≤ b)
  | gt => some fun a b => decide (b < a)
  | ge => some fun a b => decide (b ≤ a)
  | _ => none

def Op.isComparison (op : Op) : Bool :=
  op.compareNumbers?.isSome

/-- Compares two values by `op`: equality takes two truth values or two numbers, the order only
numbers. -/
def Op.compareValues (op : Op) (holds : Float → Float → Bool) (l r : Value) : Except Fault Bool :=
  match op, l, r with
  | .eq, .truth a, .truth b => .ok (a == b)
  | .ne, .truth a, .truth b => .ok (a != b)
  | _, l, r => do
    let a ← l.asNumber
    let b ← r.asNumber
    return holds a b

/-- Joins two values by a logical operator whose answer is `decisive` as soon as the left value is:
then the kind of the right value does not matter. -/
def joinTruths (decisive : Bool) (l r : Value) : Except Fault Bool := do
  let a ← l.asTruth
  if a == decisive then return a else r.asTruth

/-- A left-associative chain after its first value: while an operator of the level follows, `step`
takes the value so far and the tokens after the operator. -/
def chainFrom (step : Op → Option (Value → Level)) : Nat → Value → Level
  | 0, v, ts => .ok (v, ts)
  | fuel + 1, v, ts =>
    match ts with
    | .op op :: rest =>
      match step op with
      | some f =>
        match f v rest with
        | .ok (v, rest) => chainFrom step fuel v rest
        | .error e => .error e
      | none => .ok (v, ts)
    | _ => .ok (v, ts)

/-- A left-associative chain of operands. It has at most as many operators as there are tokens. -/
def chain (operand : Level) (step : Op → Option (Value → Level)) : Level := fun ts =>
  match operand ts with
  | .ok (v, rest) => chainFrom step rest.length v rest
  | .error e => .error e

/-- A step of a chain of numbers: the left side must be a number before the right side is read. -/
def numberStep (operand : Level) (compute : Float → Float → Except Fault Float) (l : Value) :
    Level := fun ts => do
  let a ← l.asNumber
  let (r, rest) ← operand ts
  let b ← r.asNumber
  let x ← compute a b
  return (.number x, rest)

/-- A step of a chain of truth values: the right side is read first. -/
def truthStep (operand : Level) (decisive : Bool) (l : Value) : Level := fun ts => do
  let (r, rest) ← operand ts
  let b ← joinTruths decisive l r
  return (.truth b, rest)

/-- Numbers, truth values and parenthesised expressions. -/
def primary (nested : Level) : Level
  | [] => .error (.parse .unexpectedEnd)
  | .number x :: rest => .ok (.number x, rest)
  | .truth b :: rest => .ok (.truth b, rest)
  | .opening :: rest => do
    let (v, rest) ← nested rest
    match rest with
    | .closing :: rest => return (v, rest)
    | _ => throw (.parse .missingClose)
  | .closing :: _ => .error (.parse .expectedValue)
  | .op _ :: _ => .error (.parse .expectedValue)

def unary (nested : Level) : Level
  | .op .not :: rest => do
    let (v, rest) ← unary nested rest
    let b ← v.asTruth
    return (.truth (!b), rest)
  | .op .sub :: rest => do
    let (v, rest) ← unary nested rest
    let x ← v.asNumber
    return (.number (-x), rest)
  | .op .add :: rest => do
    let (v, rest) ← unary nested rest
    let x ← v.asNumber
    return (.number x, rest)
  | ts => primary nested ts

def product (nested : Level) : Level :=
  chain (unary nested) fun op =>
    if op.isProduct then op.arithmetic.map (numberStep (unary nested)) else none

def sum (nested : Level) : Level :=
  chain (product nested) fun op =>
    if op.isSum then op.arithmetic.map (numberStep (product nested)) else none

/-- Whether a comparison operator comes next. -/
def comparisonFollows : List Token → Bool
  | .op op :: _ => op.isComparison
  | _ => false

/-- One comparison, or none; a second one must not follow. -/
def comparison (nested : Level) : Level := fun ts => do
  let (l, rest) ← sum nested ts
  match rest with
  | .op op :: after =>
    match op.compareNumbers? with
    | some holds =>
      let (r, after) ← sum nested after
      let b ← op.compareValues holds l r
      if comparisonFollows after then throw (.parse .chainedComparison)
      return (.truth b, after)
    | none => return (l, rest)
  | _ => return (l, rest)

def conjunction (nested : Level) : Level :=
  chain (comparison nested) fun op =>
    if op = .and then some (truthStep (comparison nested) false) else none

def disjunction (nested : Level) : Level :=
  chain (conjunction nested) fun op =>
    if op = .or then some (truthStep (conjunction nested) true) else none

/-- Expressions with parentheses nested at most `depth` deep. -/
def expression : (depth : Nat) → Level
  | 0 => fun _ => .error (.parse .unexpectedEnd)
  | depth + 1 => disjunction (expression depth)

/-- The value of a token sequence. Parentheses cannot be nested deeper than there are tokens. -/
def evaluateTokens (ts : List Token) : Except Fault Value := do
  let (v, rest) ← expression ts.length ts
  if rest.isEmpty then return v else throw (.parse .trailingInput)

/-- The value of a text. All of it is cut into tokens before the first is looked at. -/
def evaluate (cs : List Char) : Except Fault Value :=
  match tokens cs with
  | .ok ts => evaluateTokens ts
  | .error reason => .error (.parse reason)

end MeshLimiter.Template
