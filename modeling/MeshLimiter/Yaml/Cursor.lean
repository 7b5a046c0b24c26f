/-!
# Places in a YAML text

A cursor is what is left of a text, with the line and column that were reached. Lines end at a line
feed, a carriage return, the two together, or one of three further separators; of the latter two of
them keep their own character when a line end becomes part of a value.
-/

namespace MeshLimiter.Yaml

/-- The characters that may stand in a text at all. -/
def isAllowed (c : Char) : Bool :=
  let n := c.toNat
  n == 0x09 || n == 0x0A || n == 0x0D || (0x20 ≤ n && n ≤ 0x7E) || n == 0x85
    || (0xA0 ≤ n && n ≤ 0xFFFD) || 0x10000 ≤ n

/-- The characters that end a line. -/
def isBreak (c : Char) : Bool :=
  c = '\n' || c = '\r' || c = '\u0085' || c = '\u2028' || c = '\u2029'

def isBlank (c : Char) : Bool :=
  c = ' ' || c = '\t'

/-- The characters of names: letters, digits, hyphen and underscore. -/
def isNameChar (c : Char) : Bool :=
  c.isAlphanum || c = '-' || c = '_'

/-- A place in a text. -/
structure Cursor where
  rest : List Char
  line : Nat := 0
  column : Nat := 0
  index : Nat := 0

namespace Cursor

def at? (c : Cursor) (n : Nat) : Option Char :=
  c.rest[n]?

/-- Whether a given character comes next. -/
def next? (c : Cursor) (x : Char) : Bool :=
  c.rest.head? == some x

/-- Whether the character some places on is one of a class. -/
def isAt (c : Cursor) (n : Nat) (p : Char → Bool) : Bool :=
  (c.at? n).any p

/-- Whether some places on the text ends or a blank or line end stands. -/
def gapAt (c : Cursor) (n : Nat) : Bool :=
  match c.at? n with
  | none => true
  | some x => isBlank x || isBreak x

/-- Whether the text ends here or a line end stands. -/
def atLineEnd (c : Cursor) : Bool :=
  match c.rest with
  | [] => true
  | x :: _ => isBreak x

/-- One character further on the same line. -/
def skip (c : Cursor) : Cursor :=
  { c with rest := c.rest.tail, column := c.column + 1, index := c.index + 1 }

/-- Some characters further on the same line. -/
def skipN (c : Cursor) (n : Nat) : Cursor :=
  { c with rest := c.rest.drop n, column := c.column + n, index := c.index + n }

/-- The start of the next line, after a line end. -/
def skipBreak (c : Cursor) : Cursor :=
  match c.rest with
  | '\r' :: '\n' :: rest => { rest, line := c.line + 1, column := 0, index := c.index + 2 }
  | _ :: rest => { rest, line := c.line + 1, column := 0, index := c.index + 1 }
  | [] => c

/-- What a line end stands for inside a value. -/
def breakText (c : Cursor) : List Char :=
  match c.rest with
  | [] => []
  | x :: _ => if x = '\u2028' ∨ x = '\u2029' then [x] else ['\n']

/-- The characters of a class that come next, and the place after them. -/
def takeWhile (c : Cursor) (p : Char → Bool) : List Char × Cursor :=
  let taken := c.rest.takeWhile p
  (taken, c.skipN taken.length)

/-- The place after the characters of a class. -/
def skipWhile (c : Cursor) (p : Char → Bool) : Cursor :=
  (c.takeWhile p).2

/-- Whether one of the two marks that end a document stands here, at the start of a line. -/
def atDocumentMark (c : Cursor) : Bool :=
  c.column == 0 && ("---".toList.isPrefixOf c.rest || "...".toList.isPrefixOf c.rest) && c.gapAt 3

end Cursor

/-- The blanks and line ends between two parts of a value. -/
structure Gap where
  /-- The blanks before the first line end. -/
  blanks : List Char := []
  /-- What the line ends stand for, first to last. -/
  breaks : List Char := []
  /-- Whether a line has ended. -/
  broken : Bool := false

namespace Gap

/-- What a gap comes to: one line feed becomes a space, and of several the first is dropped. -/
def folded (g : Gap) : List Char :=
  if !g.broken then g.blanks
  else
    match g.breaks with
    | ['\n'] => [' ']
    | '\n' :: more => more
    | breaks => breaks

/-- Reads a gap. A tab left of column `tabLimit` on a later line is refused. -/
def read? (tabLimit : Nat) : Nat → Cursor → Gap → Option (Gap × Cursor)
  | 0, c, g => some (g, c)
  | fuel + 1, c, g =>
    match c.rest with
    | [] => some (g, c)
    | x :: _ =>
      if isBlank x then
        if g.broken && c.column < tabLimit && x = '\t' then none
        else
          let g := if g.broken then g else { g with blanks := g.blanks ++ [x] }
          read? tabLimit fuel c.skip g
      else if isBreak x then
        read? tabLimit fuel c.skipBreak { g with breaks := g.breaks ++ c.breakText, broken := true }
      else some (g, c)

end Gap

end MeshLimiter.Yaml
