import MeshLimiter.Decimal.Literal
import MeshLimiter.Json.Record
import MeshLimiter.Query.Backend
/-!
# Queries and samples as documents

The JSON form of handlers, of queries that are asked and of what they give. The numbers of a sample
are texts, since the format has no words for those that are not finite.
-/

namespace MeshLimiter

namespace QueryHandler

def toJson (h : QueryHandler) : Json :=
  .obj [("query", .str h.query), ("type", .str h.kind.name)]

/-- Reads the written form; a handler is for a single value unless it says otherwise. -/
def ofJson? (v : Json) : Option QueryHandler := do
  let f := Json.Fields.named (← v.members?)
  return {
    query := ← f.required 0 "query" Json.text?
    kind := ← f.withDefault 1 "type" .value fun k => k.text?.bind QueryKind.ofName? }

end QueryHandler

namespace Handlers

def toJson (hs : Handlers) : Json := .ofMap QueryHandler.toJson hs

def ofJson? (v : Json) : Option Handlers := v.mapOf? QueryHandler.ofJson?

end Handlers

def Query.toJson (q : Query) : Json :=
  .obj [("name", .str q.name), ("query", .str q.query), ("kind", .str q.kind.name)]

def Json.ofFloat (x : Float) : Json := .str (Decimal.floatText x)

def Json.float? (v : Json) : Option Float := v.text?.bind Decimal.readFloat?

namespace Sample

def toJson : Sample → Json
  | scalar x => .obj [("scalar", .ofFloat x)]
  | vector xs =>
    .obj [("vector", .arr (xs.map fun (labels, x) => .arr [.ofMap .str labels, .ofFloat x]))]

def member? : Json → Option (Labels × Float)
  | .arr [labels, x] => do return (← labels.mapOf? Json.text?, ← x.float?)
  | _ => none

end Sample

/-- Reads what a query gives: a sample, or the message of an error. -/
def QueryReply.ofJson? : Json → Option QueryReply
  | .obj [("scalar", x)] => x.float?.map fun x => .ok (.scalar x)
  | .obj [("vector", xs)] => (xs.listOf? Sample.member?).map fun xs => .ok (.vector xs)
  | .obj [("error", message)] => message.text?.map fun m => .error (.backend m)
  | _ => none

end MeshLimiter
