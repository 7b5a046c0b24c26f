import MeshLimiter.Filter.Basic
import MeshLimiter.Limiter.Descriptor
import MeshLimiter.ResourceId
import MeshLimiter.Subset
/-!
# Resources of the cluster

The objects that the controller reads and writes, each with its metadata. Of objects that others
own, only what the controller looks at is kept.

`Limiter` is the kind `SmartLimiter`, `ProxyFilter` the kind `EnvoyFilter`, and `TrafficRule` the
kind `DestinationRule`. The other kinds are called by their own names.
-/

namespace MeshLimiter

/-- A reference from an object to the one that owns it. -/
structure OwnerReference where
  apiVersion : String
  kind : String
  name : String
  uid : String
  controller : Option Bool := none
  blockOwnerDeletion : Option Bool := none
deriving DecidableEq, Repr

/-- What the cluster keeps about every object. -/
structure Metadata where
  name : Option String := none
  ns : Option String := none
  generation : Option Int64 := none
  uid : Option String := none
  resourceVersion : Option String := none
  labels : Option Labels := none
  ownerReferences : Option (List OwnerReference) := none
deriving DecidableEq

/-- The identifier of an object; what is missing is empty. -/
def Metadata.id (m : Metadata) : ResourceId :=
  { ns := m.ns.getD "", name := m.name.getD "" }

/-- A rate limiter as it stands in the cluster. -/
structure Limiter where
  metadata : Metadata := {}
  spec : LimiterSpec := {}
  status : Option LimiterStatus := none
deriving DecidableEq

/-- A proxy filter as it stands in the cluster. -/
structure ProxyFilter where
  metadata : Metadata := {}
  spec : FilterSpec := {}
deriving DecidableEq

/-- What a traffic rule says about the subsets of a host. -/
structure TrafficRuleSpec where
  host : String := ""
  subsets : List Subset := []
deriving DecidableEq

/-- A traffic rule. -/
structure TrafficRule where
  metadata : Metadata := {}
  spec : TrafficRuleSpec := {}
deriving DecidableEq

/-- A slice of the endpoints of a service, which its labels name. -/
structure EndpointSlice where
  metadata : Metadata := {}
deriving DecidableEq

/-- A service: the labels that pick its pods, if it has a specification and that gives any. -/
structure Service where
  metadata : Metadata := {}
  selector : Option (Option Labels) := none
deriving DecidableEq

/-- The labels that pick the pods of a service; none pick nothing. -/
def Service.podSelector (s : Service) : Labels :=
  (s.selector.join).getD ∅

/-- A pod. One that is being deleted is terminating. -/
structure Pod where
  metadata : Metadata := {}
  terminating : Bool := false
deriving DecidableEq

/-- Named texts. -/
structure ConfigMap where
  metadata : Metadata := {}
  data : Option (Std.ExtTreeMap String String) := none
deriving DecidableEq

/-- The reference that makes a limiter the controller of an object; only a limiter with a name and a
unique identifier can be referred to. -/
def Limiter.ownerReference? (l : Limiter) : Option OwnerReference := do
  return {
    apiVersion := "microservice.slime.io/v1alpha2"
    kind := "SmartLimiter"
    name := ← l.metadata.name
    uid := ← l.metadata.uid
    controller := some true }

end MeshLimiter
