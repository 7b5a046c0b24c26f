import MeshLimiter.Query.Pods
import MeshLimiter.Text.Search
/-!
# Metric queries

A handler is a query with holes for the namespace and the pods. A query for a single value that
names the pods is asked once for each subset; every other query is asked once, for the pods of the
base subset.

The holes are `$namespace` and `$pod_name`.
-/

namespace MeshLimiter

/-- What a query gives: one value, or the values of a whole set of labels. -/
inductive QueryKind where
  | value
  | group
deriving DecidableEq, Repr

def QueryKind.name : QueryKind → String
  | value => "value"
  | group => "group"

def QueryKind.ofName? (name : String) : Option QueryKind :=
  [value, group].find? (·.name == name)

/-- A query with holes. -/
structure QueryHandler where
  query : String
  kind : QueryKind := .value
deriving DecidableEq, Repr

/-- Handlers by the name of their metric. -/
abbrev Handlers := Std.ExtTreeMap String QueryHandler

/-- A query to ask, and the key that its answer is stored under. -/
structure Query where
  name : String
  query : String
  kind : QueryKind
deriving DecidableEq, Repr

namespace Handlers

/-- The query for the processor time of pods, joined by `aggregate`. -/
def processorTime (aggregate : String) : QueryHandler :=
  { query := aggregate ++ "(container_cpu_usage_seconds_total\x7bnamespace=\"$namespace\","
      ++ "pod=~\"$pod_name\",image=\"\"\x7d)" }

/-- The handlers when none are configured. -/
def builtIn : Handlers :=
  (∅ : Handlers).insert "cpu.sum" (processorTime "sum") |>.insert "cpu.max" (processorTime "max")

end Handlers

namespace Query

/-- The hole for the namespace. -/
def namespaceHole : String := "$namespace"

def podHole : String := "$pod_name"

def alternatives (pods : List String) : String :=
  "|".intercalate pods

/-- The subsets that have pods, the base subset first and the others by name. -/
def subsetOrder (pods : PodGroups) : List (String × List String) :=
  let base := (pods[Subset.baseName]?.map fun ps => (Subset.baseName, ps)).toList
  let others := pods.toList.filter fun (name, _) => name != Subset.baseName
  (base ++ others).filter fun (_, ps) => !ps.isEmpty

/-- The queries of one handler; a blank one asks nothing. At most `max` subsets are asked for. -/
def ofHandler (id : ResourceId) (pods : PodGroups) (max : Nat) (metric : String)
    (h : QueryHandler) :
    List Query :=
  if h.query.isEmpty then []
  else
    let query := Text.replaceAll namespaceHole id.ns h.query
    if h.kind = .value && Text.occurs podHole.toList query.toList then
      ((subsetOrder pods).take max).map fun (subset, ps) =>
        { name := subset ++ "." ++ metric
          query := Text.replaceAll podHole (alternatives ps) query
          kind := .value }
    else
      let ps := pods.getD Subset.baseName []
      [{ name := metric, query := Text.replaceAll podHole (alternatives ps) query, kind := h.kind }]

/-- The queries of all handlers for a service, by the name of the metric. -/
def render (id : ResourceId) (pods : PodGroups) (handlers : Handlers) (max : Nat) : List Query :=
  handlers.toList.flatMap fun (metric, h) => ofHandler id pods max metric h

end Query

end MeshLimiter
