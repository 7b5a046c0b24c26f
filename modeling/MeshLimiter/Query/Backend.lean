import MeshLimiter.Query.Sample
/-!
# The metrics backend

What a query may come to, and a backend that answers queries from a table after a delay.
-/

namespace MeshLimiter

/-- Why a query has no answer. -/
inductive QueryError where
  /-- The backend reported an error. -/
  | backend (message : String)
  /-- The answer is of a kind that cannot be used. -/
  | unsupported (kind : String)
  /-- A value is not a number. -/
  | invalidSample (text : String)
  /-- The request could not be made. -/
  | unreachable
deriving DecidableEq, Repr

/-- The wording of an error, where it has one of its own. -/
def QueryError.message? : QueryError → Option String
  | backend message => some ("metrics backend returned an error: " ++ message)
  | unsupported kind => some ("unsupported result type " ++ kind)
  | invalidSample text => some ("invalid sample value " ++ Text.quoted text)
  | unreachable => none

abbrev QueryReply := Except QueryError Sample

/-- Answers to queries by their text. -/
structure Backend where
  answers : Std.ExtTreeMap String QueryReply := ∅
  /-- The answer to every other query. -/
  fallback : Option QueryReply := none
  /-- The milliseconds that a query takes. -/
  delay : Nat := 0

def Backend.answer (b : Backend) (query : String) : QueryReply :=
  (b.answers[query]? <|> b.fallback).getD (.error (.backend "no sample"))

end MeshLimiter
