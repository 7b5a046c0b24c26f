import MeshLimiter.Json.Writer
/-!
# Log events

What the controller reports while it runs: a level, the part of the controller that speaks, a
message and further fields.
-/

namespace MeshLimiter

/-- How grave an event is. -/
inductive LogLevel where
  | error
  | warn
  | info
  | debug
  | trace
deriving DecidableEq, Repr

namespace LogLevel

def all : List LogLevel := [error, warn, info, debug, trace]

def name : LogLevel → String
  | error => "ERROR"
  | warn => "WARN"
  | info => "INFO"
  | debug => "DEBUG"
  | trace => "TRACE"

/-- The place of a level among all, from one for the gravest. -/
def rank : LogLevel → Nat
  | error => 1
  | warn => 2
  | info => 3
  | debug => 4
  | trace => 5

end LogLevel

/-- An event. -/
structure LogEvent where
  level : LogLevel
  /-- The part of the controller that speaks. -/
  target : String
  message : String
  fields : List (String × Json) := []
deriving DecidableEq, Repr

namespace LogEvent

/-- The names of all that an event carries. -/
def fieldNames (e : LogEvent) : List String :=
  "message" :: e.fields.map (·.1)

def toJson (e : LogEvent) : Json :=
  .obj [("level", .str e.level.name), ("fields", .obj (("message", .str e.message) :: e.fields))]

/-- The event on one line for people to read. -/
def plainLine (e : LogEvent) : String :=
  " ".intercalate ([e.level.name, e.target ++ ":", e.message]
    ++ e.fields.map fun (name, v) => name ++ "=" ++ v.compact)

end LogEvent

end MeshLimiter
