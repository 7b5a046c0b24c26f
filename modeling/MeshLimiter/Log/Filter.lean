import MeshLimiter.Decimal.Integer
import MeshLimiter.Log.Event
import MeshLimiter.Text.Blank
/-!
# Log filters

A filter is a list of directives, each of which sets the least grave level that is let through for
the events of a part of the controller, or for those in a span, or for those with a field. Of all
directives that apply to an event the most specific decides, and of equal ones the last.
-/

namespace MeshLimiter

/-- The least grave level that is let through, if any is. -/
abbrev LogThreshold := Option LogLevel

namespace LogThreshold

/-- Whether events of a level are let through. -/
def admits (t : LogThreshold) (level : LogLevel) : Bool :=
  t.any fun least => level.rank ≤ least.rank

/-- The threshold with a number, zero for none. -/
def ofRank? (n : Nat) : Option LogThreshold :=
  if n = 0 then some none else (LogLevel.all.find? (·.rank == n)).map some

/-- Reads a threshold: the number or the name of a level in any case, or `off`. -/
def ofChars? (cs : List Char) : Option LogThreshold :=
  match (Decimal.readNat? cs).bind ofRank? with
  | some t => some t
  | none =>
    let name := (String.ofList cs).toUpper
    if name = "OFF" then some none else (LogLevel.all.find? (·.name == name)).map some

end LogThreshold

/-- A field that a directive asks for, and whether it asks for a value of it. -/
structure LogFieldFilter where
  name : String
  valued : Bool := false
deriving DecidableEq, Repr

/-- One rule of a filter. -/
structure LogDirective where
  threshold : LogThreshold := some .trace
  /-- What the target of an event begins with. -/
  target : Option String := none
  /-- The span that an event is in. -/
  span : Option String := none
  field : Option LogFieldFilter := none
deriving DecidableEq, Repr

namespace LogDirective

/-- Whether a directive can be judged by an event alone, whatever span it is in. -/
def isStatic (d : LogDirective) : Bool :=
  d.span.isNone && d.field.all (!·.valued)

/-- Whether a directive applies to an event that is in no span. -/
def appliesTo (d : LogDirective) (e : LogEvent) : Bool :=
  d.isStatic && d.target.all (fun t => t.toList.isPrefixOf e.target.toList)
    && d.field.all fun f => e.fieldNames.contains f.name

/-- How specific a directive is: by the length of its target, then by its field. -/
def specificity : LogDirective → LogDirective → Ordering :=
  compareLex (compareOn fun d => d.target.map String.utf8ByteSize)
    (compareOn fun d => d.field.map LogFieldFilter.name)

/-- Reads the field of a directive: a name, with a value after an equals sign if one is asked
for. -/
def field? (cs : List Char) : Option LogFieldFilter :=
  if cs.isEmpty then none
  else
    let name := cs.takeWhile (· ≠ '=')
    some { name := String.ofList name, valued := name.length < cs.length }

/-- Reads what stands after the equals sign of a directive: a threshold, or nothing for all
levels. -/
def withThreshold? (d : LogDirective) (cs : List Char) : Option LogDirective :=
  if cs.isEmpty then some d else (LogThreshold.ofChars? cs).map fun threshold =>
    { d with threshold }

/-- Reads what stands after the brackets of a directive; `whole` is what follows them with the
blanks at its end. -/
def afterBrackets? (d : LogDirective) (whole : List Char) : List Char → Option LogDirective
  | [] => some d
  | '=' :: _ => d.withThreshold? (whole.drop 1)
  | _ => none

/-- Reads the brackets of a directive after the first: the name of a span, then perhaps a field in
braces. -/
def brackets? (d : LogDirective) (whole cs : List Char) : Option LogDirective :=
  let isEnd (c : Char) : Bool := c = ']' || c = '\x7b'
  let size := (cs.takeWhile (!isEnd ·)).length
  let span := String.ofList (whole.take size)
  match cs.drop size with
  | ']' :: rest => afterBrackets? { d with span := some span } (whole.drop (size + 1)) rest
  | '\x7b' :: rest => do
    let d := if size = 0 then d else { d with span := some span }
    let whole := whole.drop (size + 1)
    let size := (rest.takeWhile (· ≠ '\x7d')).length
    let field ← field? (whole.take size)
    match rest.drop size with
    | '\x7d' :: ']' :: rest =>
      afterBrackets? { d with field := some field } (whole.drop (size + 2)) rest
    | _ => none
  | _ => none

/-- Whether a directive may begin with a character, other than the bracket of a span. -/
def isTargetStart (c : Char) : Bool :=
  c.isAlphanum || c = '-' || c = ':' || c = '_' || 0x80 ≤ c.toNat

/-- Reads a directive. Where its parts end is found without the blanks around it; the parts
themselves are cut from the whole text. -/
def ofChars? (whole : List Char) : Option LogDirective :=
  let cs := Text.trim whole
  match cs with
  | [] => none
  | '[' :: rest => brackets? {} (whole.drop 1) rest
  | c :: _ =>
    if isTargetStart c then
      let size := (cs.takeWhile fun c => c ≠ '=' && c ≠ '[').length
      let target := String.ofList (whole.take size)
      let after := whole.drop (size + 1)
      match cs.drop size with
      | [] =>
        match LogThreshold.ofChars? whole with
        | some threshold => some { threshold }
        | none => some { target := some (String.ofList whole) }
      | '=' :: _ => withThreshold? { target := some target } after
      | _ :: rest => brackets? { target := some target } after rest
    else none

end LogDirective

/-- Which events are let through. -/
structure LogFilter where
  directives : List LogDirective
deriving DecidableEq, Repr

namespace LogFilter

/-- Reads a filter: directives with commas between them. -/
def ofText? (text : String) : Option LogFilter := do
  let parts := (text.toList.splitOn ',').filter (!·.isEmpty)
  return { directives := ← parts.mapM LogDirective.ofChars? }

/-- The directive that decides about an event. -/
def deciding? (f : LogFilter) (e : LogEvent) : Option LogDirective :=
  (f.directives.filter (·.appliesTo e)).foldl (fun best d =>
    match best with
    | some b => if LogDirective.specificity b d = .gt then best else some d
    | none => some d) none

/-- Whether an event is let through; one that no directive applies to is not. -/
def admits (f : LogFilter) (e : LogEvent) : Bool :=
  (f.deciding? e).any fun d => d.threshold.admits e.level

end LogFilter

end MeshLimiter
