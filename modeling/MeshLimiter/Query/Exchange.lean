import MeshLimiter.Http.Message
import MeshLimiter.Json.Reader
import MeshLimiter.Json.Record
import MeshLimiter.Labels
import MeshLimiter.Query.Backend
/-!
# Asking a metrics server

The request for a query and what its answer says. A document that can be read counts whatever the
status of the answer, since the server reports its errors in documents.

The server is one of Prometheus: it is asked at `/api/v1/query` and answers with a scalar or with a
vector of values, each with its labels.
-/

namespace MeshLimiter

/-- A metrics server. -/
structure MetricsServer where
  address : String
  /-- The milliseconds that an answer may take. -/
  timeout : Nat := 0
deriving DecidableEq, Repr

/-- What is asked of a metrics server. -/
structure QueryRequest where
  url : String
  parameters : List (String × String)
  timeout : Nat
deriving DecidableEq, Repr

/-- The request for a query. Slashes that end the address are dropped. -/
def MetricsServer.request (s : MetricsServer) (query : String) : QueryRequest :=
  let base := (s.address.toList.reverse.dropWhile (· = '/')).reverse
  { url := String.ofList base ++ "/api/v1/query"
    parameters := [("query", query)]
    timeout := s.timeout }

/-- The text of a value at a time; times are not kept. -/
abbrev Point := String

/-- The data of an answer, values still being texts. -/
inductive QueryData where
  | scalar (value : Point)
  | vector (values : List (Labels × Point))
  /-- Data of a kind that cannot be used. -/
  | other (kind : String)

/-- A document that answers a query. -/
structure QueryDocument where
  status : String
  data : Option QueryData := none
  error : Option String := none

namespace QueryData

/-- Reads a pair of a time and the text of a value. -/
def point? : Json → Option Point
  | .arr [.num _, .str value] => some value
  | _ => none

def member? (v : Json) : Option (Labels × Point) := do
  let f ← Json.fields? 2 v
  let labels ← f.withDefault 0 "metric" ∅ (Json.mapOf? Json.text?)
  let value ← f.required 1 "value" point?
  return (labels, value)

/-- Reads data: the name of its kind, and a result of that kind. -/
def ofJson? (v : Json) : Option QueryData := do
  let f ← Json.fields? 2 v
  match ← f.required 0 "resultType" Json.name? with
  | "scalar" => (f.required 1 "result" point?).map scalar
  | "vector" => (f.required 1 "result" (Json.listOf? member?)).map vector
  | "matrix" => (f.required 1 "result" some).map fun _ => other "matrix"
  | "string" => (f.required 1 "result" some).map fun _ => other "string"
  | _ => none

/-- The number that the text of a value is. -/
def number (value : Point) : Except QueryError Float :=
  match Decimal.readFloat? value with
  | some x => .ok x
  | none => .error (.invalidSample value)

/-- The sample that data holds; of several values that are no numbers the first is reported. -/
def sample : QueryData → QueryReply
  | scalar value => (number value).map .scalar
  | vector values =>
    (values.mapM fun m : Labels × Point => (number m.2).map fun x => (m.1, x)).map .vector
  | other kind => .error (.unsupported kind)

end QueryData

namespace QueryDocument

def ofJson? (v : Json) : Option QueryDocument := do
  let f ← Json.fields? 3 v
  return {
    status := ← f.required 0 "status" Json.text?
    data := ← f.optional 1 "data" QueryData.ofJson?
    error := ← f.optional 2 "error" Json.text? }

def reply (d : QueryDocument) : QueryReply :=
  if d.status = "success" then
    match d.data with
    | some data => data.sample
    | none => .error (.backend "response has no data")
  else .error (.backend (d.error.getD d.status))

end QueryDocument

/-- What an answer says. One that cannot be read is reported by its status, unless that is one of
success. -/
def QueryReply.ofResponse (r : Http.Response) : QueryReply :=
  match (Json.parse? r.body).bind QueryDocument.ofJson? with
  | some d => d.reply
  | none =>
    .error (.backend (if r.status.isSuccess then "invalid response" else r.status.text))

end MeshLimiter
