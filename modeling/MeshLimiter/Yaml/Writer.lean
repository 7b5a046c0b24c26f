import MeshLimiter.Decimal.Literal
import MeshLimiter.Decimal.Binary64
import MeshLimiter.Yaml.Record
/-!
# Writing YAML

How a text is written as a scalar in the block style. A text stands plain if it reads back as the
same text there; else between single quotes, or between double quotes if it needs escapes. A text
with line feeds is a block of lines. Lines are never folded.
-/

namespace MeshLimiter.Yaml

namespace Writer

def boolWords : List String := ["true", "True", "TRUE", "false", "False", "FALSE"]

/-- The size of the negative whole number that a plain text stands for. -/
def negative? (cs : List Char) : Option Nat :=
  match cs with
  | '-' :: '0' :: 'x' :: ds => Decimal.readDigits? 16 ds
  | '-' :: '0' :: 'o' :: ds => Decimal.readDigits? 8 ds
  | '-' :: '0' :: 'b' :: ds => Decimal.readDigits? 2 ds
  | '-' :: ds => Decimal.readDigits? 10 ds
  | _ => none

/-- Whether a plain text stands for a whole number of at most 128 bits. -/
def isWhole (cs : List Char) : Bool :=
  (readNat? cs).any (· < Nat.pow 2 128) || (negative? cs).any (· ≤ Nat.pow 2 127)

/-- Whether a plain text stands for a number with a fraction, for infinity or for no number. -/
def isReal (s : String) : Bool :=
  let cs := s.toList
  let body :=
    match cs with
    | '+' :: body => body
    | body => body
  let twoSigns := cs.length ≠ body.length && (body.head? == some '+' || body.head? == some '-')
  !twoSigns && ([".inf", ".Inf", ".INF"].contains (String.ofList body)
    || ["-.inf", "-.Inf", "-.INF", ".nan", ".NaN", ".NAN"].contains s
    || (Decimal.readFloat? (String.ofList body)).any Decimal.isFinite)

/-- Whether a plain text would be taken for something other than a text. -/
def readsOtherwise (s : String) : Bool :=
  Node.nullWords.contains s || boolWords.contains s || isWhole s.toList || isReal s
    || isPaddedNumber s.toList

/-- The characters that are written as they are: no controls, no byte order mark, and nothing beyond
the first plane. -/
def isPrintable (c : Char) : Bool :=
  let n := c.toNat
  n == 0x0A || (0x20 ≤ n && n ≤ 0x7E) || (0xA0 ≤ n && n ≤ 0xFFFD && n != 0xFEFF)

/-- Whether no character or a space or line end comes next. -/
def gapNext (cs : List Char) : Bool :=
  match cs with
  | [] => true
  | c :: _ => isBlank c || isBreak c

/-- Whether an indicator stands among characters after the first, so that plain text would end. -/
def hasInnerIndicator : (afterGap : Bool) → List Char → Bool
  | _, [] => false
  | afterGap, c :: cs =>
    (c = ':' && gapNext cs) || (c = '#' && afterGap)
      || hasInnerIndicator (isBlank c || isBreak c) cs

/-- Whether an indicator keeps a text from standing plain. -/
def hasIndicator (cs : List Char) : Bool :=
  match cs with
  | [] => false
  | c :: rest =>
    "---".toList.isPrefixOf cs || "...".toList.isPrefixOf cs
      || "#,[]\x7b\x7d&*!|>'\"%@\x60".toList.contains c
      || ((c = '?' || c = ':' || c = '-') && gapNext rest)
      || hasInnerIndicator (isBlank c || isBreak c) rest

/-- Whether a character of one class stands right before one of another. -/
def hasPair (p q : Char → Bool) : List Char → Bool
  | c :: d :: cs => (p c && q d) || hasPair p q (d :: cs)
  | _ => false

/-- A space, which unlike a tab may stand at a fold. -/
def isSpace (c : Char) : Bool :=
  c = ' '

/-- Whether a text needs escapes. -/
def needsEscapes (cs : List Char) : Bool :=
  cs.any (fun c => !isPrintable c) || hasPair isSpace isBreak cs

/-- Whether the text has a space or line end as its first or last character. -/
def hasOuterGap (cs : List Char) : Bool :=
  let gap (c : Char) : Bool := isSpace c || isBreak c
  cs.head?.any gap || cs.getLast?.any gap

/-- Whether a text may stand plain. -/
def mayBePlain (cs : List Char) : Bool :=
  !hasOuterGap cs && !needsEscapes cs && !cs.any isBreak && !hasIndicator cs

/-- Whether a text may stand between single quotes. -/
def mayBeSingleQuoted (cs : List Char) : Bool :=
  !needsEscapes cs && !hasPair isBreak isSpace cs

/-- Whether a text may stand as a block of lines. -/
def mayBeBlock (cs : List Char) : Bool :=
  !needsEscapes cs && !cs.getLast?.any isSpace

def styleOf (s : String) : ScalarStyle :=
  let cs := s.toList
  if cs.contains '\n' then (if mayBeBlock cs then .literal else .doubleQuoted)
  else if !readsOtherwise s && mayBePlain cs then .plain
  else if mayBeSingleQuoted cs then .singleQuoted
  else .doubleQuoted

/-- A number as `width` hexadecimal digits. -/
def hexDigits (width n : Nat) : List Char :=
  let ds := (Nat.toDigits 16 n).map Char.toUpper
  List.replicate (width - ds.length) '0' ++ ds

/-- A character between double quotes. -/
def escapedChar (c : Char) : List Char :=
  if isPrintable c && !isBreak c && c != '"' && c != '\\' then [c]
  else
    let code : List Char :=
      match c with
      | '\x00' => ['0']
      | '\x07' => ['a']
      | '\x08' => ['b']
      | '\t' => ['t']
      | '\n' => ['n']
      | '\x0b' => ['v']
      | '\x0c' => ['f']
      | '\r' => ['r']
      | '\x1b' => ['e']
      | '"' => ['"']
      | '\\' => ['\\']
      | '\u0085' => ['N']
      | '\u2028' => ['L']
      | '\u2029' => ['P']
      | c =>
        let n := c.toNat
        if n ≤ 0xFF then 'x' :: hexDigits 2 n
        else if n ≤ 0xFFFF then 'u' :: hexDigits 4 n
        else 'U' :: hexDigits 8 n
    '\\' :: code

/-- Characters with indentation before each that follows a line end. -/
def indented (indent : Nat) (each : Char → List Char) : (lineStart : Bool) → List Char → List Char
  | _, [] => []
  | lineStart, c :: cs =>
    if isBreak c then c :: indented indent each true cs
    else
      (if lineStart then List.replicate indent ' ' else []) ++ each c
        ++ indented indent each false cs

def singleQuoted (indent : Nat) (cs : List Char) : List Char :=
  let each (c : Char) : List Char := if c = '\'' then ['\'', '\''] else [c]
  let tail := if cs.getLast?.any isBreak then List.replicate indent ' ' else []
  '\'' :: indented indent each false cs ++ tail ++ ['\'']

/-- The marks of a block: its indentation if the text begins with a gap, and what becomes of its
end. -/
def blockMarks (cs : List Char) : List Char :=
  let width := if cs.head?.any fun c => isSpace c || isBreak c then ['2'] else []
  let chomping :=
    match cs.reverse with
    | [] => ['-']
    | [c] => if isBreak c then ['+'] else ['-']
    | c :: d :: _ => if !isBreak c then ['-'] else if isBreak d then ['+'] else []
  width ++ chomping

/-- A text as a block of lines, up to the end of its last line. -/
def literal (indent : Nat) (cs : List Char) : List Char :=
  let body := indented indent (fun c => [c]) true cs
  '|' :: blockMarks cs ++ '\n' :: body ++ (if cs.getLast?.any isBreak then [] else ['\n'])

/-- A text as the value of a key, up to the end of its last line. `indent` is the indentation of its
lines. -/
def scalarLines (indent : Nat) (s : String) : String :=
  let cs := s.toList
  String.ofList (match styleOf s with
    | .singleQuoted => singleQuoted indent cs ++ ['\n']
    | .doubleQuoted => '"' :: cs.flatMap escapedChar ++ ['"', '\n']
    | .literal => literal indent cs
    | _ => cs ++ ['\n'])

end Writer

end MeshLimiter.Yaml
