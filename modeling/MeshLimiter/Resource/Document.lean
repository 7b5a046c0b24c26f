import MeshLimiter.Filter.Document
import MeshLimiter.Limiter.Document
import MeshLimiter.Resource.Basic
/-!
# Resources as documents

The JSON form of the objects. The objects that the controller defines the shape of are records with
metadata and a specification, which must be given; the version and kind are written, not read. In
the objects of the cluster itself a member may be repeated, the last one counting, or null, and a
version and kind that are given must be the right ones.
-/

namespace MeshLimiter

open Json (member? fields?)

/-- A member of an object of the cluster: absent or null for none; every occurrence must be
readable, and the last counts. -/
def Json.lastOf? {α : Type} (members : List (String × Json)) (name : String)
    (read : Json → Option α) : Option (Option α) :=
  ((members.filter fun m => m.1 == name).mapM fun m => Json.optional? read m.2).map fun found =>
    found.getLast?.join

/-- Whether the version and kind are those given, wherever they stand. -/
def Json.isOfKind (members : List (String × Json)) (apiVersion kind : String) : Bool :=
  members.all fun (k, v) =>
    (k != "apiVersion" || v == .str apiVersion) && (k != "kind" || v == .str kind)

namespace OwnerReference

def toJson (r : OwnerReference) : Json :=
  .obj ([("apiVersion", .str r.apiVersion)]
    ++ member? "blockOwnerDeletion" (r.blockOwnerDeletion.map .bool)
    ++ member? "controller" (r.controller.map .bool)
    ++ [("kind", .str r.kind), ("name", .str r.name), ("uid", .str r.uid)])

def ofJson? (v : Json) : Option OwnerReference := do
  let ms ← v.members?
  return {
    apiVersion := (← Json.lastOf? ms "apiVersion" Json.text?).getD ""
    kind := (← Json.lastOf? ms "kind" Json.text?).getD ""
    name := (← Json.lastOf? ms "name" Json.text?).getD ""
    uid := (← Json.lastOf? ms "uid" Json.text?).getD ""
    controller := ← Json.lastOf? ms "controller" Json.bool?
    blockOwnerDeletion := ← Json.lastOf? ms "blockOwnerDeletion" Json.bool? }

end OwnerReference

namespace Metadata

def toJson (m : Metadata) : Json :=
  .obj (member? "generation" (m.generation.map fun g => .ofInt g.toInt)
    ++ member? "labels" (m.labels.map Labels.toJson)
    ++ member? "name" (m.name.map .str)
    ++ member? "namespace" (m.ns.map .str)
    ++ member? "ownerReferences" (m.ownerReferences.map fun rs =>
      .arr (rs.map OwnerReference.toJson))
    ++ member? "resourceVersion" (m.resourceVersion.map .str)
    ++ member? "uid" (m.uid.map .str))

def ofJson? (v : Json) : Option Metadata := do
  let ms ← v.members?
  return {
    name := ← Json.lastOf? ms "name" Json.text?
    ns := ← Json.lastOf? ms "namespace" Json.text?
    generation := ← Json.lastOf? ms "generation" Json.int64?
    uid := ← Json.lastOf? ms "uid" Json.text?
    resourceVersion := ← Json.lastOf? ms "resourceVersion" Json.text?
    labels := ← Json.lastOf? ms "labels" Labels.ofJson?
    ownerReferences := ← Json.lastOf? ms "ownerReferences" (Json.listOf? OwnerReference.ofJson?) }

end Metadata

/-- An object with its version, kind and metadata, and the members given. -/
def Json.resource (apiVersion kind : String) (m : Metadata) (members : List (String × Json)) :
    Json :=
  .obj ([("apiVersion", .str apiVersion), ("kind", .str kind), ("metadata", m.toJson)] ++ members)

namespace Limiter

def apiVersion : String := "microservice.slime.io/v1alpha2"

def kind : String := "SmartLimiter"

def toJson (l : Limiter) : Json :=
  .resource apiVersion kind l.metadata
    (("spec", l.spec.toJson) :: member? "status" (l.status.map LimiterStatus.toJson))

def ofJson? (v : Json) : Option Limiter := do
  let f ← fields? 3 v
  return {
    metadata := ← f.required 0 "metadata" Metadata.ofJson?
    spec := ← f.required 1 "spec" LimiterSpec.ofJson?
    status := ← f.optional 2 "status" LimiterStatus.ofJson? }

end Limiter

namespace ProxyFilter

def apiVersion : String := "networking.istio.io/v1alpha3"

def kind : String := "EnvoyFilter"

def toJson (p : ProxyFilter) : Json :=
  .resource apiVersion kind p.metadata [("spec", p.spec.toJson)]

def ofJson? (v : Json) : Option ProxyFilter := do
  let f ← fields? 2 v
  return {
    metadata := ← f.required 0 "metadata" Metadata.ofJson?
    spec := ← f.required 1 "spec" FilterSpec.ofJson? }

end ProxyFilter

namespace Subset

def toJson (s : Subset) : Json :=
  .obj [("name", .str s.name), ("labels", s.labels.toJson)]

def ofJson? (v : Json) : Option Subset := do
  let f ← fields? 2 v
  return {
    name := ← f.required 0 "name" Json.text?
    labels := ← f.withDefault 1 "labels" ∅ Labels.ofJson? }

end Subset

namespace TrafficRule

def apiVersion : String := "networking.istio.io/v1beta1"

def kind : String := "DestinationRule"

def specToJson (s : TrafficRuleSpec) : Json :=
  .obj [("host", .str s.host), ("subsets", .arr (s.subsets.map Subset.toJson))]

def specOfJson? (v : Json) : Option TrafficRuleSpec := do
  let f ← fields? 2 v
  return {
    host := ← f.withDefault 0 "host" "" Json.text?
    subsets := ← f.withDefault 1 "subsets" [] (Json.listOf? Subset.ofJson?) }

def toJson (r : TrafficRule) : Json :=
  .resource apiVersion kind r.metadata [("spec", specToJson r.spec)]

def ofJson? (v : Json) : Option TrafficRule := do
  let f ← fields? 2 v
  return {
    metadata := ← f.required 0 "metadata" Metadata.ofJson?
    spec := ← f.required 1 "spec" specOfJson? }

end TrafficRule

namespace Service

def toJson (s : Service) : Json :=
  .resource "v1" "Service" s.metadata
    (member? "spec" (s.selector.map fun l => .obj (member? "selector" (l.map Labels.toJson))))

def ofJson? (v : Json) : Option Service := do
  let ms ← v.members?
  if Json.isOfKind ms "v1" "Service" then
    let metadata ← Json.lastOf? ms "metadata" Metadata.ofJson?
    let selector ← Json.lastOf? ms "spec" fun spec => do
      Json.lastOf? (← spec.members?) "selector" Labels.ofJson?
    return { metadata := metadata.getD {}, selector }
  else none

end Service

namespace Pod

/-- Reads a pod; a time of deletion marks it as terminating. -/
def ofJson? (v : Json) : Option Pod := do
  let ms ← v.members?
  if Json.isOfKind ms "v1" "Pod" then
    let metadata ← Json.lastOf? ms "metadata" Metadata.ofJson?
    let deleted ← Json.lastOf? ms "metadata" fun m => do
      Json.lastOf? (← m.members?) "deletionTimestamp" Json.text?
    return { metadata := metadata.getD {}, terminating := deleted.join.isSome }
  else none

end Pod

namespace ConfigMap

def toJson (c : ConfigMap) : Json :=
  .resource "v1" "ConfigMap" c.metadata (member? "data" (c.data.map fun d => .ofMap .str d))

def ofJson? (v : Json) : Option ConfigMap := do
  let ms ← v.members?
  if Json.isOfKind ms "v1" "ConfigMap" then
    let metadata ← Json.lastOf? ms "metadata" Metadata.ofJson?
    let data ← Json.lastOf? ms "data" (Json.mapOf? Json.text?)
    return { metadata := metadata.getD {}, data }
  else none

end ConfigMap

end MeshLimiter
