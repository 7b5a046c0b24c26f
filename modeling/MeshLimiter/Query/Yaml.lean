import MeshLimiter.Query.Basic
import MeshLimiter.Yaml.Record
/-!
# Metric queries in YAML

The form of a metric configuration: handlers by the name of their metric.
-/

namespace MeshLimiter

open Yaml (Node)

def QueryHandler.ofNode? (n : Node) : Option QueryHandler := do
  let f ← n.fields? 2
  return {
    query := ← f.required 0 "query" Node.text?
    kind := ← f.withDefault 1 "type" .value fun n => n.name?.bind QueryKind.ofName? }

def Handlers.ofYaml? (text : String) : Option Handlers :=
  (Node.ofText? text).bind (Node.mapOf? QueryHandler.ofNode?)

end MeshLimiter
