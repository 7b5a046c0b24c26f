import MeshLimiter.ResourceId
import MeshLimiter.Subset
/-!
# Names of proxy filters

Each subset of a service has its own proxy filter, in the namespace of the service. Its name tells
the service and the subset.

A name ends in `.ratelimit`, after service, namespace and subset.
-/

namespace MeshLimiter

/-- The name of the filter of a subset; the base subset is not named in it. -/
def filterName (id : ResourceId) (subset : String) : String :=
  if subset = Subset.baseName then id.name ++ "." ++ id.ns ++ ".ratelimit"
  else id.name ++ "." ++ id.ns ++ "." ++ subset ++ ".ratelimit"

end MeshLimiter
