import MeshLimiter.ResourceId
import MeshLimiter.Text.Search
/-!
# Service hosts

A traffic rule may name its service's host in short; the index keeps hosts in full. A full host
leads back to the service.
-/

namespace MeshLimiter.Host

/-- The end of every full host of a cluster. -/
def clusterSuffix (domain : String) : List Char :=
  ".svc.".toList ++ domain.toList

/-- A host without the points at its end. -/
def trimPoints (cs : List Char) : List Char :=
  (cs.reverse.dropWhile (· = '.')).reverse

/-- The number of labels of a host. -/
def labelCount (cs : List Char) : Nat :=
  cs.count '.' + 1

/-- The full form of a host that a rule in namespace `ns` gives: a name is completed with the
namespace and the cluster's domain, a name and namespace with the domain. Hosts of another shape
stay as they are. -/
def normalize (host ns domain : String) : String :=
  let h := trimPoints host.toList
  let full : List Char :=
    if (clusterSuffix domain).isSuffixOf h then h
    else if labelCount h = 1 then h ++ '.' :: ns.toList ++ clusterSuffix domain
    else if labelCount h = 2 then h ++ clusterSuffix domain
    else if labelCount h = 3 && ".svc".toList.isSuffixOf h then h ++ '.' :: domain.toList
    else h
  String.ofList full

/-- The service of a full host: before the first point its name, after it its namespace. -/
def service? (host domain : String) : Option ResourceId := do
  let service ← Text.before? (clusterSuffix domain) host.toList
  let (name, ns) ← Text.cutAt? ['.'] service
  return { ns := String.ofList ns, name := String.ofList name }

end MeshLimiter.Host
