import MeshLimiter.Cluster.Call
import MeshLimiter.Decimal.Integer
/-!
# A cluster

The objects of a cluster and what calls do to them. Every object that is stored gets the next
version, and a replacement must name the version that it replaces; so of two writers that read the
same object the second is refused.
-/

namespace MeshLimiter

/-- The objects that a controller sees. -/
structure Cluster where
  services : Std.ExtTreeMap ResourceId Service := ∅
  pods : List Pod := []
  filters : Std.ExtTreeMap ResourceId ProxyFilter := ∅
  configMaps : Std.ExtTreeMap ResourceId ConfigMap := ∅
  /-- The status that was last written for each limiter. -/
  statuses : Std.ExtTreeMap ResourceId LimiterStatus := ∅
  /-- The version that was given out last. -/
  version : Nat := 0

namespace Cluster

def nextVersion (c : Cluster) : String :=
  Decimal.natText (c.version + 1)

/-- The pods of a namespace that a selector picks. -/
def podsOf (c : Cluster) (ns : String) (selector : Labels) : List Pod :=
  c.pods.filter fun p => p.metadata.ns == some ns && (p.metadata.labels.getD ∅).selectedBy selector

/-- Stores a filter under the next version. -/
def storeFilter (c : Cluster) (f : ProxyFilter) : Cluster :=
  let stored := { f with metadata := { f.metadata with resourceVersion := some c.nextVersion } }
  { c with filters := c.filters.insert f.metadata.id stored, version := c.version + 1 }

/-- Stores named texts under the next version. -/
def storeConfigMap (c : Cluster) (m : ConfigMap) : Cluster :=
  let stored := { m with metadata := { m.metadata with resourceVersion := some c.nextVersion } }
  { c with configMaps := c.configMaps.insert m.metadata.id stored, version := c.version + 1 }

/-- Puts a filter in place, whatever stood there. One without a version gets the next one. -/
def putFilter (c : Cluster) (f : ProxyFilter) : Cluster :=
  if f.metadata.resourceVersion.isSome then
    { c with filters := c.filters.insert f.metadata.id f }
  else c.storeFilter f

/-- Puts named texts in place, whatever stood there. Texts without a version get the next one. -/
def putConfigMap (c : Cluster) (m : ConfigMap) : Cluster :=
  if m.metadata.resourceVersion.isSome then
    { c with configMaps := c.configMaps.insert m.metadata.id m }
  else c.storeConfigMap m

/-- Creates an object, which must not exist. -/
def create {α : Type} (current : Option α) (store : Cluster) (c : Cluster) :
    Except ClusterError Unit × Cluster :=
  match current with
  | some _ => (.error .conflict, c)
  | none => (.ok (), store)

/-- Replaces an object, which must exist in the version that the new one names. -/
def replace {α : Type} (version : α → Option String) (current : Option α) (new : α)
    (store : Cluster) (c : Cluster) : Except ClusterError Unit × Cluster :=
  match current with
  | none => (.error .notFound, c)
  | some old => if version old = version new then (.ok (), store) else (.error .conflict, c)

/-- What a call gives, and the cluster after it. -/
def perform (c : Cluster) : (call : ClusterCall) → call.Reply × Cluster
  | .service id => (.ok c.services[id]?, c)
  | .pods ns selector => (.ok (c.podsOf ns selector), c)
  | .filter id => (.ok c.filters[id]?, c)
  | .createFilter f => create c.filters[f.metadata.id]? (c.storeFilter f) c
  | .replaceFilter f =>
    replace (·.metadata.resourceVersion) c.filters[f.metadata.id]? f (c.storeFilter f) c
  | .deleteFilter id =>
    if c.filters.contains id then (.ok (), { c with filters := c.filters.erase id })
    else (.error .notFound, c)
  | .configMap id => (.ok c.configMaps[id]?, c)
  | .createConfigMap m => create c.configMaps[m.metadata.id]? (c.storeConfigMap m) c
  | .replaceConfigMap m =>
    replace (·.metadata.resourceVersion) c.configMaps[m.metadata.id]? m (c.storeConfigMap m) c
  | .patchStatus id status => (.ok (), { c with statuses := c.statuses.insert id status })

end Cluster

end MeshLimiter
