import MeshLimiter.Json.Basic
import MeshLimiter.Labels
/-!
# Proxy filters

What the mesh is told to change in the configuration of its proxies: for the workloads that carry
some labels, patches to HTTP filters and to routes, each with the place it applies to.

A proxy filter is an object of the kind `EnvoyFilter`. Its specification has the labels under
`workloadSelector` (`FilterSpec.workload`) and the patches under `configPatches`; a patch has its
place under `match`, and its operation and value under `patch`.
-/

namespace MeshLimiter

/-- The kind of configuration that a patch changes. -/
inductive ApplyTo where
  | httpFilter
  | httpRoute
deriving DecidableEq, Repr

/-- The direction of the traffic that a patch is for. -/
inductive PatchContext where
  | sidecarInbound
  | sidecarOutbound
deriving DecidableEq, Repr

/-- How a patch changes what it matches. -/
inductive PatchOperation where
  | merge
  | insertBefore
deriving DecidableEq, Repr

/-- A network filter, and an HTTP filter inside it. -/
structure FilterMatch where
  name : String
  subFilter : Option String := none
deriving DecidableEq, Repr

/-- A chain of filters. -/
structure FilterChainMatch where
  filter : Option FilterMatch := none
deriving DecidableEq, Repr

/-- A listener. -/
structure ListenerMatch where
  filterChain : Option FilterChainMatch := none
deriving DecidableEq, Repr

/-- A virtual host, any if it has no name, and a route of it. -/
structure VirtualHostMatch where
  name : Option String := none
  route : Option String := none
deriving DecidableEq, Repr

/-- A route configuration. -/
structure RouteConfigurationMatch where
  vhost : Option VirtualHostMatch := none
deriving DecidableEq, Repr

/-- The place that a patch applies to. -/
structure ObjectMatch where
  context : Option PatchContext := none
  listener : Option ListenerMatch := none
  routeConfiguration : Option RouteConfigurationMatch := none
deriving DecidableEq, Repr

/-- A patch. -/
structure ConfigPatch where
  applyTo : ApplyTo
  place : Option ObjectMatch := none
  operation : PatchOperation
  value : Json
deriving DecidableEq

/-- The patches for the workloads that carry some labels. -/
structure FilterSpec where
  workload : Option Labels := none
  patches : List ConfigPatch := []
deriving DecidableEq

/-- The filter with the members of every patch value in order. -/
def FilterSpec.normal (s : FilterSpec) : FilterSpec :=
  { s with patches := s.patches.map fun p => { p with value := p.value.normal } }

end MeshLimiter
