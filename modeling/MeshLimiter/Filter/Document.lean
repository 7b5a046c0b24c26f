import MeshLimiter.Filter.Basic
import MeshLimiter.Json.Record
/-!
# Proxy filters as documents

The JSON form of filters and their patches. Absent parts are left out when written. The value of a
patch is kept as it is.

The names of the members are those of the kind `EnvoyFilter`.
-/

namespace MeshLimiter

open Json (member? fields?)

def Labels.toJson (l : Labels) : Json := .ofMap .str l

def Labels.ofJson? (v : Json) : Option Labels := v.mapOf? Json.text?

namespace ApplyTo

def name : ApplyTo → String
  | httpFilter => "HTTP_FILTER"
  | httpRoute => "HTTP_ROUTE"

def ofJson? (v : Json) : Option ApplyTo :=
  match v.name? with
  | some "HTTP_FILTER" => some httpFilter
  | some "HTTP_ROUTE" => some httpRoute
  | _ => none

end ApplyTo

namespace PatchContext

def name : PatchContext → String
  | sidecarInbound => "SIDECAR_INBOUND"
  | sidecarOutbound => "SIDECAR_OUTBOUND"

def ofJson? (v : Json) : Option PatchContext :=
  match v.name? with
  | some "SIDECAR_INBOUND" => some sidecarInbound
  | some "SIDECAR_OUTBOUND" => some sidecarOutbound
  | _ => none

end PatchContext

namespace PatchOperation

def name : PatchOperation → String
  | merge => "MERGE"
  | insertBefore => "INSERT_BEFORE"

def ofJson? (v : Json) : Option PatchOperation :=
  match v.name? with
  | some "MERGE" => some merge
  | some "INSERT_BEFORE" => some insertBefore
  | _ => none

end PatchOperation

/-- A record with a name as its only field. -/
def Json.named (name : String) : Json := .obj [("name", .str name)]

/-- Reads a record with a name as its only field. -/
def Json.nameOfRecord? (v : Json) : Option String := do
  let f ← fields? 1 v
  f.required 0 "name" Json.text?

namespace FilterMatch

def toJson (m : FilterMatch) : Json :=
  .obj (("name", .str m.name) :: member? "subFilter" (m.subFilter.map Json.named))

def ofJson? (v : Json) : Option FilterMatch := do
  let f ← fields? 2 v
  return {
    name := ← f.required 0 "name" Json.text?
    subFilter := ← f.optional 1 "subFilter" Json.nameOfRecord? }

end FilterMatch

namespace FilterChainMatch

def toJson (m : FilterChainMatch) : Json :=
  .obj (member? "filter" (m.filter.map FilterMatch.toJson))

def ofJson? (v : Json) : Option FilterChainMatch := do
  let f ← fields? 1 v
  return { filter := ← f.optional 0 "filter" FilterMatch.ofJson? }

end FilterChainMatch

namespace ListenerMatch

def toJson (m : ListenerMatch) : Json :=
  .obj (member? "filterChain" (m.filterChain.map FilterChainMatch.toJson))

def ofJson? (v : Json) : Option ListenerMatch := do
  let f ← fields? 1 v
  return { filterChain := ← f.optional 0 "filterChain" FilterChainMatch.ofJson? }

end ListenerMatch

namespace VirtualHostMatch

def toJson (m : VirtualHostMatch) : Json :=
  .obj (member? "name" (m.name.map .str) ++ member? "route" (m.route.map Json.named))

def ofJson? (v : Json) : Option VirtualHostMatch := do
  let f ← fields? 2 v
  return {
    name := ← f.optional 0 "name" Json.text?
    route := ← f.optional 1 "route" Json.nameOfRecord? }

end VirtualHostMatch

namespace RouteConfigurationMatch

def toJson (m : RouteConfigurationMatch) : Json :=
  .obj (member? "vhost" (m.vhost.map VirtualHostMatch.toJson))

def ofJson? (v : Json) : Option RouteConfigurationMatch := do
  let f ← fields? 1 v
  return { vhost := ← f.optional 0 "vhost" VirtualHostMatch.ofJson? }

end RouteConfigurationMatch

namespace ObjectMatch

def toJson (m : ObjectMatch) : Json :=
  .obj (member? "context" (m.context.map fun c => .str c.name)
    ++ member? "listener" (m.listener.map ListenerMatch.toJson)
    ++ member? "routeConfiguration" (m.routeConfiguration.map RouteConfigurationMatch.toJson))

def ofJson? (v : Json) : Option ObjectMatch := do
  let f ← fields? 3 v
  return {
    context := ← f.optional 0 "context" PatchContext.ofJson?
    listener := ← f.optional 1 "listener" ListenerMatch.ofJson?
    routeConfiguration := ← f.optional 2 "routeConfiguration" RouteConfigurationMatch.ofJson? }

end ObjectMatch

namespace ConfigPatch

def patchToJson (p : ConfigPatch) : Json :=
  .obj [("operation", .str p.operation.name), ("value", p.value)]

def patchOfJson? (v : Json) : Option (PatchOperation × Json) := do
  let f ← fields? 2 v
  return (← f.required 0 "operation" PatchOperation.ofJson?, ← f.required 1 "value" some)

def toJson (p : ConfigPatch) : Json :=
  .obj (("applyTo", .str p.applyTo.name) ::
    member? "match" (p.place.map ObjectMatch.toJson) ++ [("patch", p.patchToJson)])

def ofJson? (v : Json) : Option ConfigPatch := do
  let f ← fields? 3 v
  let applyTo ← f.required 0 "applyTo" ApplyTo.ofJson?
  let place ← f.optional 1 "match" ObjectMatch.ofJson?
  let (operation, value) ← f.required 2 "patch" patchOfJson?
  return { applyTo, place, operation, value }

end ConfigPatch

namespace FilterSpec

/-- The labels of the workloads, in a record of their own. -/
def selectorToJson (l : Labels) : Json :=
  .obj [("labels", l.toJson)]

def selectorOfJson? (v : Json) : Option Labels := do
  let f ← fields? 1 v
  f.withDefault 0 "labels" ∅ Labels.ofJson?

def toJson (s : FilterSpec) : Json :=
  .obj (member? "workloadSelector" (s.workload.map selectorToJson)
    ++ [("configPatches", .arr (s.patches.map ConfigPatch.toJson))])

def ofJson? (v : Json) : Option FilterSpec := do
  let f ← fields? 2 v
  return {
    workload := ← f.optional 0 "workloadSelector" selectorOfJson?
    patches := ← f.withDefault 1 "configPatches" [] (Json.listOf? ConfigPatch.ofJson?) }

end FilterSpec

end MeshLimiter
