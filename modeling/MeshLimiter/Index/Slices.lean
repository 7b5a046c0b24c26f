import MeshLimiter.Resource.Basic
/-!
# The index of endpoint slices

The service of each slice. A slice that comes, changes, moves or goes changes the pods of its
service; each operation gives the keys of those services.

The slices are the objects of the kind `EndpointSlice`, each of which names its service by the label
`kubernetes.io/service-name`.
-/

namespace MeshLimiter

/-- The service of each slice. -/
structure SliceIndex where
  services : Std.ExtTreeMap ResourceId String := ∅

namespace SliceIndex

/-- The label that names the service of a slice. -/
def serviceLabel : String := "kubernetes.io/service-name"

/-- Takes in a slice; one without a namespace or a service is passed over. -/
def apply (x : SliceIndex) (s : EndpointSlice) : List ResourceId × SliceIndex :=
  match s.metadata.ns, (s.metadata.labels.getD ∅)[serviceLabel]? with
  | some ns, some service =>
    let id := s.metadata.id
    let previous := x.services[id]?.filter (· ≠ service)
    (({ ns, name := service } : ResourceId) :: previous.toList.map fun p => { ns, name := p },
      { services := x.services.insert id service })
  | _, _ => ([], x)

def delete (x : SliceIndex) (id : ResourceId) : List ResourceId × SliceIndex :=
  (x.services[id]?.toList.map fun service => { ns := id.ns, name := service },
    { services := x.services.erase id })

def size (x : SliceIndex) (ns : String) : Nat :=
  x.services.toList.countP fun (id, _) => id.ns == ns

end SliceIndex

end MeshLimiter
