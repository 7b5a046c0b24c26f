import MeshLimiter.Decimal.Integer
import MeshLimiter.Yaml.Cursor
/-!
# Scalars of YAML

A scalar is written plain, between single or double quotes, or as a block of lines that are kept or
folded. Each reader starts at the first character of the scalar, gives the value as characters, and
stops after the scalar.
-/

namespace MeshLimiter.Yaml

/-- The ways in which a scalar is written. -/
inductive ScalarStyle where
  | plain
  | singleQuoted
  | doubleQuoted
  | literal
  | folded
deriving DecidableEq, Repr

/-- The characters of the flow style that end a plain scalar there. -/
def isFlowIndicator (c : Char) : Bool :=
  c = ',' || c = '[' || c = ']' || c = '\x7b' || c = '\x7d'

namespace Scalar

/-- The rest of a text between single quotes; a doubled quote stands for one. Characters are
gathered in reverse. -/
def singleQuoted? : Nat → Cursor → List Char → Option (List Char × Cursor)
  | 0, _, _ => none
  | fuel + 1, c, acc =>
    if c.atDocumentMark then none
    else
      match c.rest with
      | [] => none
      | '\'' :: '\'' :: _ => singleQuoted? fuel (c.skipN 2) ('\'' :: acc)
      | '\'' :: _ => some (acc.reverse, c.skip)
      | x :: _ =>
        if isBlank x || isBreak x then
          match Gap.read? 0 (fuel + 1) c {} with
          | none => none
          | some (g, c) => singleQuoted? fuel c (g.folded.reverse ++ acc)
        else singleQuoted? fuel c.skip (x :: acc)

/-- The character of an escape by number, of `width` hexadecimal digits. -/
def numbered? (width : Nat) (c : Cursor) : Option (Char × Cursor) := do
  let digits := c.rest.take width
  if digits.length < width then none
  let n ← Decimal.readDigits? 16 digits
  if n.isValidChar then some (Char.ofNat n, c.skipN width) else none

/-- The character that an escape stands for, after its backslash. -/
def escape? (c : Cursor) : Option (Char × Cursor) :=
  let one (x : Char) : Option (Char × Cursor) := some (x, c.skip)
  match c.rest with
  | '0' :: _ => one '\x00'
  | 'a' :: _ => one '\x07'
  | 'b' :: _ => one '\x08'
  | 't' :: _ => one '\t'
  | '\t' :: _ => one '\t'
  | 'n' :: _ => one '\n'
  | 'v' :: _ => one '\x0b'
  | 'f' :: _ => one '\x0c'
  | 'r' :: _ => one '\r'
  | 'e' :: _ => one '\x1b'
  | ' ' :: _ => one ' '
  | '"' :: _ => one '"'
  | '/' :: _ => one '/'
  | '\\' :: _ => one '\\'
  | 'N' :: _ => one '\u0085'
  | '_' :: _ => one '\u00a0'
  | 'L' :: _ => one '\u2028'
  | 'P' :: _ => one '\u2029'
  | 'x' :: _ => numbered? 2 c.skip
  | 'u' :: _ => numbered? 4 c.skip
  | 'U' :: _ => numbered? 8 c.skip
  | _ => none

/-- The rest of a text between double quotes. A line end after a backslash is dropped with the
blanks that follow. -/
def doubleQuoted? : Nat → Cursor → List Char → Option (List Char × Cursor)
  | 0, _, _ => none
  | fuel + 1, c, acc =>
    if c.atDocumentMark then none
    else
      match c.rest with
      | [] => none
      | '"' :: _ => some (acc.reverse, c.skip)
      | '\\' :: _ =>
        if c.isAt 1 isBreak then
          match Gap.read? 0 (fuel + 1) c.skip.skipBreak { broken := true } with
          | none => none
          | some (g, c) => doubleQuoted? fuel c (g.breaks.reverse ++ acc)
        else
          match escape? c.skip with
          | none => none
          | some (x, c) => doubleQuoted? fuel c (x :: acc)
      | x :: _ =>
        if isBlank x || isBreak x then
          match Gap.read? 0 (fuel + 1) c {} with
          | none => none
          | some (g, c) => doubleQuoted? fuel c (g.folded.reverse ++ acc)
        else doubleQuoted? fuel c.skip (x :: acc)

/-- Whether a plain scalar ends before the next character: at a colon that a gap follows, and in the
flow style at its indicators. -/
def plainEnds (inFlow : Bool) (c : Cursor) : Bool :=
  c.gapAt 0 || (c.next? ':' && c.gapAt 1) || (inFlow && c.isAt 0 isFlowIndicator)

/-- A colon inside a plain scalar of the flow style that one of its indicators follows. -/
def strayColon (inFlow : Bool) (c : Cursor) : Bool :=
  inFlow && c.next? ':' && c.isAt 1 fun x => isFlowIndicator x || x = '?'

/-- The characters of a plain scalar up to a gap or its end. -/
def plainWord? (inFlow : Bool) : Nat → Cursor → List Char → Option (List Char × Cursor)
  | 0, c, acc => some (acc, c)
  | fuel + 1, c, acc =>
    if !c.gapAt 0 && strayColon inFlow c then none
    else if plainEnds inFlow c then some (acc, c)
    else
      match c.rest with
      | [] => some (acc, c)
      | x :: _ => plainWord? inFlow fuel c.skip (x :: acc)

/-- The rest of a plain scalar after what was gathered and a gap; whether a line ended behind it. A
line indented less than `indent` does not belong to it, nor does a comment. -/
def plainFrom? (inFlow : Bool) (indent : Nat) :
    Nat → Cursor → List Char → Gap → Option (List Char × Bool × Cursor)
  | 0, _, _, _ => none
  | fuel + 1, c, acc, gap =>
    let stop := some (acc.reverse, gap.broken, c)
    if c.atDocumentMark || c.next? '#' then stop
    else
      match plainWord? inFlow (fuel + 1) c (gap.folded.reverse ++ acc) with
      | none => none
      | some (more, c') =>
        if c'.index = c.index then stop
        else if !c'.isAt 0 fun x => isBlank x || isBreak x then some (more.reverse, false, c')
        else
          match Gap.read? indent (fuel + 1) c' {} with
          | none => none
          | some (g, c'') =>
            if !inFlow && c''.column < indent then some (more.reverse, g.broken, c'')
            else plainFrom? inFlow indent fuel c'' more g

/-- What becomes of the line ends at the end of a block. -/
inductive Chomping where
  | strip
  | clip
  | keep
deriving DecidableEq, Repr

/-- The marks after the indicator of a block: how its end is treated, and how far it is indented, in
either order. -/
def blockMarks? (c : Cursor) : Option (Chomping × Option Nat × Cursor) :=
  let chomping? (c : Cursor) : Option (Chomping × Cursor) :=
    match c.rest with
    | '+' :: _ => some (.keep, c.skip)
    | '-' :: _ => some (.strip, c.skip)
    | _ => none
  let width? (c : Cursor) : Option (Option Nat × Cursor) :=
    match c.rest with
    | x :: _ =>
      if x = '0' then none
      else if x.isDigit then some (some (x.toNat - 48), c.skip)
      else some (none, c)
    | [] => some (none, c)
  match chomping? c with
  | some (chomping, c) => (width? c).map fun (width, c) => (chomping, width, c)
  | none =>
    match width? c with
    | none => none
    | some (none, c) => some (.clip, none, c)
    | some (some n, c) =>
      match chomping? c with
      | some (chomping, c) => some (chomping, some n, c)
      | none => some (.clip, some n, c)

/-- The empty lines before a line of a block, and the greatest column that was reached. Spaces are
indentation up to column `indent`, or without bound if that is not yet known; there a tab is
refused. -/
def blockGap? (indent : Option Nat) :
    Nat → Cursor → List Char → Nat → Option (List Char × Nat × Cursor)
  | 0, c, breaks, widest => some (breaks, widest, c)
  | fuel + 1, c, breaks, widest =>
    let spaces := c.rest.takeWhile (· = ' ')
    let room :=
      match indent with
      | none => spaces.length
      | some n => min spaces.length (n - c.column)
    let c := c.skipN room
    let widest := max widest c.column
    let indenting : Bool :=
      match indent with
      | none => true
      | some n => c.column < n
    if indenting && c.next? '\t' then none
    else if c.isAt 0 isBreak then blockGap? indent fuel c.skipBreak (breaks ++ c.breakText) widest
    else some (breaks, widest, c)

/-- The lines of a block: the text so far in reverse, the end of the last line, the empty lines
after it, and where they end. -/
def blockLines? (keepLines : Bool) (indent : Nat) :
    Nat → Cursor → List Char → List Char → List Char → Bool →
      Option (List Char × List Char × List Char × Cursor)
  | 0, _, _, _, _, _ => none
  | fuel + 1, c, acc, lineEnd, empties, afterBlank =>
    if c.column ≠ indent || c.rest.isEmpty then some (acc, lineEnd, empties, c)
    else
      let blankFirst := c.isAt 0 isBlank
      let fold := !keepLines && lineEnd == ['\n'] && !afterBlank && !blankFirst
      let joint :=
        if fold then (if empties.isEmpty then [' '] else empties) else lineEnd ++ empties
      let (text, c) := c.takeWhile fun x => !isBreak x
      let acc := text.reverse ++ joint.reverse ++ acc
      let lineEnd := c.breakText
      match blockGap? (some indent) (fuel + 1) c.skipBreak [] 0 with
      | none => none
      | some (empties, _, c) => blockLines? keepLines indent fuel c acc lineEnd empties blankFirst

/-- A block, after its indicator. `parent` is the indentation around it, if there is any. -/
def block? (keepLines : Bool) (parent : Option Nat) (c : Cursor) : Option (List Char × Cursor) := do
  let (chomping, width, c) ← blockMarks? c
  let c := c.skipWhile isBlank
  let c := if c.next? '#' then c.skipWhile fun x => !isBreak x else c
  if !c.atLineEnd then none
  let c := c.skipBreak
  let fuel := c.rest.length + 1
  let fixed := width.map fun w => parent.getD 0 + w
  let (empties, widest, c) ← blockGap? fixed fuel c [] 0
  let indent := fixed.getD (max widest (max ((parent.map (· + 1)).getD 0) 1))
  let (acc, lineEnd, empties, c) ← blockLines? keepLines indent fuel c [] [] empties false
  let tail :=
    match chomping with
    | .strip => []
    | .clip => lineEnd
    | .keep => lineEnd ++ empties
  return (acc.reverse ++ tail, c)

end Scalar

end MeshLimiter.Yaml
