import MeshLimiter.Options.Basic
import MeshLimiter.Text.Search
/-!
# The command line

A flag takes its value from behind an equals sign or from the next argument, which must not begin
with a dash. Every flag may be given once. A flag whose value is the next argument takes effect only
when the argument after that is looked at, and an argument that is not known is reported before it
does.
-/

namespace MeshLimiter

/-- What is wrong with a command line. -/
inductive UsageError where
  | unknownArgument (text : String)
  | missingValue (flag : Flag)
  | badValue (flag : Flag) (value : String)
  | repeatedFlag (flag : Flag)
deriving DecidableEq, Repr

def UsageError.message : UsageError → String
  | unknownArgument text => "unexpected argument '" ++ text ++ "' found"
  | missingValue flag => "a value is required for '--" ++ flag.name ++ "' but none was supplied"
  | badValue flag value => "invalid value '" ++ value ++ "' for '--" ++ flag.name ++ "'"
  | repeatedFlag flag => "the argument '--" ++ flag.name ++ "' cannot be used multiple times"

/-- What one argument is. -/
inductive Argument where
  /-- Two dashes alone: no flags follow. -/
  | endOfFlags
  | flag (name : String) (value : Option String)
  /-- A dash and letters. -/
  | short (text : String)
  | plain (text : String)
deriving DecidableEq, Repr

def Argument.ofText (text : String) : Argument :=
  match text.toList with
  | ['-', '-'] => endOfFlags
  | '-' :: '-' :: cs =>
    match Text.cutAt? ['='] cs with
    | some (name, value) => flag (String.ofList name) (some (String.ofList value))
    | none => flag (String.ofList cs) none
  | '-' :: _ :: _ => short text
  | _ => plain text

/-- The command line up to some argument. -/
structure CommandLine where
  options : Options := {}
  /-- The flags that have taken effect. -/
  given : List Flag := []
  /-- The flag that takes its value from an argument, with the value once it is there. -/
  pending : Option (Flag × Option String) := none
deriving DecidableEq, Repr

namespace CommandLine

/-- Lets a flag take effect. -/
def assign (c : CommandLine) (flag : Flag) (value : String) : Except UsageError CommandLine :=
  if c.given.contains flag then .error (.repeatedFlag flag)
  else if flag.isPath && value.isEmpty then .error (.missingValue flag)
  else
    match c.options.set? flag value with
    | some options => .ok { c with options, given := flag :: c.given }
    | none => .error (.badValue flag value)

/-- Lets the flag that is pending take effect. -/
def settle (c : CommandLine) : Except UsageError CommandLine :=
  match c.pending with
  | none => .ok c
  | some (flag, none) => .error (.missingValue flag)
  | some (flag, some value) => { c with pending := none }.assign flag value

/-- Looks at one argument; none at the end of the flags. -/
def next (c : CommandLine) (text : String) : Except UsageError CommandLine :=
  match Argument.ofText text with
  | .flag name value =>
    match Flag.ofName? name with
    | none => .error (.unknownArgument text)
    | some flag => do
      let c ← c.settle
      match value with
      | some value => c.assign flag value
      | none => .ok { c with pending := some (flag, none) }
  | .plain value =>
    match c.pending with
    | some (flag, none) => .ok { c with pending := some (flag, some value) }
    | _ => .error (.unknownArgument text)
  | _ => .error (.unknownArgument text)

def readFrom (c : CommandLine) : List String → Except UsageError CommandLine
  | [] => c.settle
  | text :: rest =>
    if Argument.ofText text = .endOfFlags then
      match rest with
      | [] => c.settle
      | extra :: _ => .error (.unknownArgument extra)
    else (c.next text).bind fun c => c.readFrom rest

end CommandLine

/-- Lets the variable for the filter of events take effect, unless its flag has. -/
def CommandLine.withVariable (c : CommandLine) : Option String → Except UsageError CommandLine
  | some value => if c.given.contains .logLevel then .ok c else c.assign .logLevel value
  | none => .ok c

/-- Reads a command line; `logVariable` is the value of the variable for the filter of events. -/
def Options.ofArguments (arguments : List String) (logVariable : Option String := none) :
    Except UsageError Options := do
  let c ← CommandLine.readFrom {} arguments
  return (← c.withVariable logVariable).options

end MeshLimiter
