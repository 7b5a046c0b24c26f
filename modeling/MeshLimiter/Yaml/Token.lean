import MeshLimiter.Yaml.Scalar
/-!
# Tokens of YAML

A text as a list of tokens, with the starts and ends of indented collections among them. Only at its
colon does the key of a mapping show to be one; so each place where a key may have begun is
remembered as a candidate, and the tokens for the mapping and its key are inserted there later.
-/

namespace MeshLimiter.Yaml

/-- The tokens. -/
inductive Token where
  | version (major minor : Nat)
  | tagHandle (handle lead : String)
  | documentStart
  | documentEnd
  | blockSequenceStart
  | blockMappingStart
  | blockEnd
  | flowSequenceStart
  | flowSequenceEnd
  | flowMappingStart
  | flowMappingEnd
  | blockEntry
  | flowEntry
  | key
  | value
  | alias (name : String)
  | anchor (name : String)
  | tag (handle suffix : String)
  | scalar (text : String) (style : ScalarStyle)
deriving DecidableEq, Repr

/-- A place where a key may have begun. -/
structure KeyCandidate where
  /-- Whether nothing but a key may stand there. -/
  required : Bool
  /-- The number of tokens before it. -/
  token : Nat
  line : Nat
  column : Nat
  index : Nat
deriving DecidableEq, Repr

/-- How far a text has been read. -/
structure Scan where
  cursor : Cursor
  tokens : Array Token := #[]
  /-- The column of the innermost indented collection. -/
  indent : Option Nat := none
  /-- The columns of those around it, innermost first. -/
  outer : List (Option Nat) := []
  /-- Whether a key may begin here. -/
  keyAllowed : Bool := true
  /-- The candidate of each collection between brackets or braces that is open, innermost first. -/
  flowKeys : List (Option KeyCandidate) := []
  /-- The candidate outside of them. -/
  blockKey : Option KeyCandidate := none

namespace Scan

/-- Whether the text is between brackets or braces. -/
def inFlow (s : Scan) : Bool :=
  !s.flowKeys.isEmpty

/-- Adds a token. -/
def emit (s : Scan) (t : Token) : Scan :=
  { s with tokens := s.tokens.push t }

/-- The candidate of the innermost collection. -/
def candidate (s : Scan) : Option KeyCandidate :=
  match s.flowKeys with
  | [] => s.blockKey
  | k :: _ => k

/-- Sets the candidate of the innermost collection. -/
def setCandidate (s : Scan) (k : Option KeyCandidate) : Scan :=
  match s.flowKeys with
  | [] => { s with blockKey := k }
  | _ :: ks => { s with flowKeys := k :: ks }

/-- Gives up the candidate of the innermost collection, unless it had to be a key. -/
def dropCandidate? (s : Scan) : Option Scan :=
  if s.candidate.any (·.required) then none else some (s.setCandidate none)

/-- Remembers a candidate here, if a key may begin. -/
def saveCandidate? (s : Scan) : Option Scan :=
  if s.keyAllowed then
    s.dropCandidate?.map fun s => s.setCandidate (some {
      required := !s.inFlow && s.indent == some s.cursor.column
      token := s.tokens.size
      line := s.cursor.line
      column := s.cursor.column
      index := s.cursor.index })
  else some s

/-- Whether a key that began at a candidate would be too long: a key stays on one line and within
1024 characters. -/
def isStale (s : Scan) (k : KeyCandidate) : Bool :=
  k.line < s.cursor.line || k.index + 1024 < s.cursor.index

/-- Gives up the candidates that are too far back. -/
def dropStale? (s : Scan) : Option Scan :=
  let live (k : Option KeyCandidate) : Option KeyCandidate := k.filter fun k => !s.isStale k
  let lost (k : Option KeyCandidate) : Bool := k.any fun k => k.required && s.isStale k
  if lost s.blockKey then none
  else some { s with blockKey := live s.blockKey, flowKeys := s.flowKeys.map live }

/-- Whether an indentation is to the left of a column. -/
def isLeftOf (indent : Option Nat) (column : Nat) : Bool :=
  match indent with
  | none => true
  | some n => n < column

/-- Opens an indented collection at a column, if that is deeper than the innermost one. Its token
goes to place `at?`, or else to the end. -/
def openBlock (s : Scan) (column : Nat) (place : Option Nat) (t : Token) : Scan :=
  if !s.inFlow && isLeftOf s.indent column then
    let tokens :=
      match place with
      | some n => s.tokens.insertIdxIfInBounds n t
      | none => s.tokens.push t
    { s with tokens, indent := some column, outer := s.indent :: s.outer }
  else s

/-- Closes the indented collections that are deeper than a column. -/
def closeBlocks (s : Scan) (column : Option Nat) : Scan :=
  if s.inFlow then s
  else
    let deeper (i : Option Nat) : Bool :=
      match i, column with
      | none, _ => false
      | some _, none => true
      | some n, some c => c < n
    let open_ := s.indent :: s.outer
    let closed := open_.takeWhile deeper
    match open_.dropWhile deeper with
    | [] => s
    | indent :: outer =>
      { s with
        tokens := s.tokens ++ (closed.map fun _ => Token.blockEnd).toArray
        indent
        outer }

/-- The place after the blanks, comments and line ends that come next. A tab is no indentation. -/
def skipSpace : Nat → Scan → Scan
  | 0, s => s
  | fuel + 1, s =>
    let c := s.cursor
    let c := if c.index == 0 && c.next? '\ufeff' then c.skip else c
    let c := c.skipWhile fun x => x = ' ' || ((s.inFlow || !s.keyAllowed) && x = '\t')
    let c := if c.next? '#' then c.skipWhile fun x => !isBreak x else c
    if c.isAt 0 isBreak then
      skipSpace fuel { s with cursor := c.skipBreak, keyAllowed := !s.inFlow || s.keyAllowed }
    else { s with cursor := c }

/-- A token of some characters on the current line. -/
def mark (s : Scan) (width : Nat) (t : Token) : Scan :=
  { s with cursor := s.cursor.skipN width }.emit t

/-- A mark between documents. -/
def documentMark? (s : Scan) (t : Token) : Option Scan := do
  let s ← (s.closeBlocks none).dropCandidate?
  return { s with keyAllowed := false }.mark 3 t

/-- The start of a collection between brackets or braces. -/
def flowStart? (s : Scan) (t : Token) : Option Scan := do
  let s ← s.saveCandidate?
  return { s with flowKeys := none :: s.flowKeys, keyAllowed := true }.mark 1 t

/-- The end of a collection between brackets or braces. -/
def flowEnd? (s : Scan) (t : Token) : Option Scan := do
  let s ← s.dropCandidate?
  return { s with flowKeys := s.flowKeys.tail, keyAllowed := false }.mark 1 t

def flowEntry? (s : Scan) : Option Scan := do
  let s ← s.dropCandidate?
  return { s with keyAllowed := true }.mark 1 .flowEntry

def blockEntry? (s : Scan) : Option Scan := do
  if !s.inFlow && !s.keyAllowed then none
  let s ← (s.openBlock s.cursor.column none .blockSequenceStart).dropCandidate?
  return { s with keyAllowed := true }.mark 1 .blockEntry

def key? (s : Scan) : Option Scan := do
  if !s.inFlow && !s.keyAllowed then none
  let s ← (s.openBlock s.cursor.column none .blockMappingStart).dropCandidate?
  return { s with keyAllowed := !s.inFlow }.mark 1 .key

/-- The colon after a key: what began at the candidate was the key, if there is one. -/
def value? (s : Scan) : Option Scan :=
  match s.candidate with
  | some k =>
    let s := { s with tokens := s.tokens.insertIdxIfInBounds k.token .key }
    let s := (s.openBlock k.column (some k.token) .blockMappingStart).setCandidate none
    some ({ s with keyAllowed := false }.mark 1 .value)
  | none =>
    if !s.inFlow && !s.keyAllowed then none
    else
      let s := s.openBlock s.cursor.column none .blockMappingStart
      some ({ s with keyAllowed := !s.inFlow }.mark 1 .value)

/-- The name of an anchor or alias, after its indicator. -/
def anchorName? (c : Cursor) : Option (String × Cursor) :=
  let (name, c) := c.takeWhile isNameChar
  let ends := c.gapAt 0 || c.isAt 0 fun x => "?:,]\x7d%@\x60".toList.contains x
  if name.isEmpty || !ends then none else some (String.ofList name, c)

def anchor? (s : Scan) (t : String → Token) : Option Scan := do
  let s ← s.saveCandidate?
  let (name, cursor) ← anchorName? s.cursor.skip
  return { s with keyAllowed := false, cursor }.emit (t name)

/-- The handle of a tag: a name between two exclamation marks, or the first mark alone with what
follows of a name. -/
def tagHandle? (inDirective : Bool) (c : Cursor) : Option (String × Cursor) :=
  if !c.next? '!' then none
  else
    let (name, c) := c.skip.takeWhile isNameChar
    if c.next? '!' then some (String.ofList ('!' :: name ++ ['!']), c.skip)
    else if inDirective && !name.isEmpty then none
    else some (String.ofList ('!' :: name), c)

/-- The characters of the text of a tag; commas and brackets only where `wide`. -/
def isTagChar (wide : Bool) (c : Char) : Bool :=
  isNameChar c || ";/?:@&=+$.!~*'()".toList.contains c || (wide && ",[]".toList.contains c)

/-- The number of bytes of a character that begins with a byte. -/
def byteCount? (n : Nat) : Option Nat :=
  if n < 0x80 then some 1
  else if n < 0xC0 then none
  else if n < 0xE0 then some 2
  else if n < 0xF0 then some 3
  else if n < 0xF8 then some 4
  else none

/-- Bytes written with a percent sign and two digits each. -/
def escapedBytes? : Nat → Cursor → Option (List Nat × Cursor)
  | 0, c => some ([], c)
  | n + 1, c =>
    match c.rest with
    | '%' :: a :: b :: _ => do
      let byte ← Decimal.readDigits? 16 [a, b]
      let (bytes, c) ← escapedBytes? n (c.skipN 3)
      return (byte :: bytes, c)
    | _ => none

/-- A character written as escaped bytes. -/
def escapedChar? (c : Cursor) : Option (Char × Cursor) := do
  let ([first], _) ← escapedBytes? 1 c | none
  let (bytes, c) ← escapedBytes? (← byteCount? first) c
  let text ← String.fromUTF8? ⟨(bytes.map UInt8.ofNat).toArray⟩
  return (← text.toList.head?, c)

def tagText? (wide : Bool) : Nat → Cursor → List Char → Option (List Char × Cursor)
  | 0, c, acc => some (acc.reverse, c)
  | fuel + 1, c, acc =>
    match c.rest with
    | '%' :: _ =>
      match escapedChar? c with
      | none => none
      | some (x, c) => tagText? wide fuel c (x :: acc)
    | x :: _ => if isTagChar wide x then tagText? wide fuel c.skip (x :: acc)
        else some (acc.reverse, c)
    | [] => some (acc.reverse, c)

/-- A tag: its full text between angle brackets, or a handle and a suffix. -/
def tag? (s : Scan) : Option Scan := do
  let s ← s.saveCandidate?
  let c := s.cursor
  let fuel := c.rest.length + 1
  let (t, c) ←
    if c.isAt 1 (· = '<') then do
      let (text, c) ← tagText? true fuel (c.skipN 2) []
      if text.isEmpty || !c.next? '>' then none
      else some (Token.tag "" (String.ofList text), c.skip)
    else do
      let (handle, c) ← tagHandle? false c
      let closed := handle.length > 1 && handle.toList.getLast? == some '!'
      let (text, c) ← tagText? false fuel c []
      if closed then
        if text.isEmpty then none else some (Token.tag handle (String.ofList text), c)
      else
        let suffix := handle.toList.tail ++ text
        if suffix.isEmpty then some (Token.tag "" "!", c)
        else some (Token.tag "!" (String.ofList suffix), c)
  if !c.gapAt 0 && !(s.inFlow && c.next? ',') then none
  return { s with keyAllowed := false, cursor := c }.emit t

def block? (s : Scan) (keepLines : Bool) : Option Scan := do
  let s ← s.dropCandidate?
  let (text, cursor) ← Scalar.block? keepLines s.indent s.cursor.skip
  return { s with keyAllowed := true, cursor }.emit
    (.scalar (String.ofList text) (if keepLines then .literal else .folded))

def quoted? (s : Scan) (double : Bool) : Option Scan := do
  let s ← s.saveCandidate?
  let fuel := s.cursor.rest.length + 1
  let (text, cursor) ←
    if double then Scalar.doubleQuoted? fuel s.cursor.skip []
    else Scalar.singleQuoted? fuel s.cursor.skip []
  return { s with keyAllowed := false, cursor }.emit
    (.scalar (String.ofList text) (if double then .doubleQuoted else .singleQuoted))

/-- A plain scalar. After a line end behind it a key may begin. -/
def plain? (s : Scan) : Option Scan := do
  let s ← s.saveCandidate?
  let indent := (s.indent.map (· + 1)).getD 0
  let (text, broken, cursor) ←
    Scalar.plainFrom? s.inFlow indent (s.cursor.rest.length + 1) s.cursor [] {}
  return { s with keyAllowed := broken, cursor }.emit (.scalar (String.ofList text) .plain)

/-- The rest of the line of a directive: blanks and a comment. -/
def directiveEnd? (c : Cursor) : Option Cursor :=
  let c := c.skipWhile isBlank
  let c := if c.next? '#' then c.skipWhile fun x => !isBreak x else c
  if c.atLineEnd then some c.skipBreak else none

/-- A number of at most nine digits. -/
def versionNumber? (c : Cursor) : Option (Nat × Cursor) :=
  let (digits, c) := c.takeWhile Char.isDigit
  if digits.isEmpty || 9 < digits.length then none else some (Decimal.digitsValue digits, c)

/-- A line that begins with a percent sign: the version of the language, or a handle for tags. -/
def directive? (s : Scan) : Option Scan := do
  let s ← (s.closeBlocks none).dropCandidate?
  let (name, c) := s.cursor.skip.takeWhile isNameChar
  if !c.gapAt 0 then none
  let c := c.skipWhile isBlank
  let (t, c) ←
    match String.ofList name with
    | "YAML" => do
      let (major, c) ← versionNumber? c
      if !c.next? '.' then none
      let (minor, c) ← versionNumber? c.skip
      some (Token.version major minor, c)
    | "TAG" => do
      let (handle, c) ← tagHandle? true c
      if !c.isAt 0 isBlank then none
      let c := c.skipWhile isBlank
      let (lead, c) ← tagText? true (c.rest.length + 1) c []
      if lead.isEmpty || !c.gapAt 0 then none
      some (Token.tagHandle handle (String.ofList lead), c)
    | _ => none
  return { s with keyAllowed := false, cursor := ← directiveEnd? c }.emit t

/-- The characters that begin no plain scalar. -/
def isIndicator (c : Char) : Bool :=
  "-?:,[]\x7b\x7d#&*!|>'\"%@\x60".toList.contains c

def plainBegins (s : Scan) : Bool :=
  let c := s.cursor
  (!c.gapAt 0 && !c.isAt 0 isIndicator)
    || (c.next? '-' && !c.isAt 1 isBlank)
    || (!s.inFlow && (c.next? '?' || c.next? ':') && !c.gapAt 1)

/-- The tokens of the next item; nothing more at the end of the text. -/
def item? (s : Scan) : Option Scan :=
  let c := s.cursor
  match c.rest with
  | [] => none
  | x :: _ =>
    if c.column == 0 && x = '%' then s.directive?
    else if c.atDocumentMark then s.documentMark? (if x = '-' then .documentStart else .documentEnd)
    else if x = '[' then s.flowStart? .flowSequenceStart
    else if x = '\x7b' then s.flowStart? .flowMappingStart
    else if x = ']' then s.flowEnd? .flowSequenceEnd
    else if x = '\x7d' then s.flowEnd? .flowMappingEnd
    else if x = ',' then s.flowEntry?
    else if x = '-' && c.gapAt 1 then s.blockEntry?
    else if x = '?' && (s.inFlow || c.gapAt 1) then s.key?
    else if x = ':' && (s.inFlow || c.gapAt 1) then s.value?
    else if x = '*' then s.anchor? .alias
    else if x = '&' then s.anchor? .anchor
    else if x = '!' then s.tag?
    else if x = '|' && !s.inFlow then s.block? true
    else if x = '>' && !s.inFlow then s.block? false
    else if x = '\'' then s.quoted? false
    else if x = '"' then s.quoted? true
    else if s.plainBegins then s.plain?
    else none

def run? : Nat → Scan → Option Scan
  | 0, _ => none
  | fuel + 1, s => do
    let s ← (skipSpace (s.cursor.rest.length + 1) s).dropStale?
    if s.cursor.rest.isEmpty then (s.closeBlocks none).dropCandidate?
    else run? fuel (← (s.closeBlocks (some s.cursor.column)).item?)

end Scan

/-- The tokens of a text; none if it is not well formed. -/
def Token.ofText? (text : String) : Option (List Token) :=
  let cs := text.toList
  if cs.all isAllowed then (Scan.run? (cs.length + 1) { cursor := { rest := cs } }).map
    (·.tokens.toList)
  else none

end MeshLimiter.Yaml
