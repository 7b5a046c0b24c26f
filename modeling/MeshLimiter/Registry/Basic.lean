import MeshLimiter.Limiter.Interval
import MeshLimiter.ResourceId
import MeshLimiter.Text.Search
/-!
# The registry of shared limits

One document lists the descriptors of all services for the shared rate limit service. The entries of
a service are known by the marker inside their values, and a merge replaces them as a whole.

The document is the configuration that the shared service reads: a `domain` and `descriptors`, each
with a `key`, a `value` and a `rate_limit`.
-/

namespace MeshLimiter

/-- The units in which the shared service counts. -/
inductive RateUnit where
  | second
  | minute
  | hour
  | day
deriving DecidableEq, Repr

/-- A number of requests in a unit of time. -/
structure RateLimit where
  requestsPerUnit : UInt64
  unit : RateUnit
deriving DecidableEq, Repr

/-- An entry of the registry. -/
structure GlobalDescriptor where
  key : String
  value : String
  rateLimit : RateLimit
deriving DecidableEq, Repr

/-- The registry document. -/
structure Registry where
  domain : String
  descriptors : List GlobalDescriptor := []
deriving DecidableEq, Repr

namespace RateUnit

/-- The unit of an interval of exactly one second, minute, hour or day. -/
def ofInterval? (i : FillInterval) : Option RateUnit :=
  if i.nanos ≠ 0 then none
  else if i.seconds = 1 then some second
  else if i.seconds = 60 then some minute
  else if i.seconds = 3600 then some hour
  else if i.seconds = 86400 then some day
  else none

/-- What is said of an interval that is no unit. -/
def missingMessage (i : FillInterval) : String :=
  "fill interval " ++ i.text ++ " has no rate limit unit; use 1s, 60s, 3600s or 86400s"

def name : RateUnit → String
  | second => "SECOND"
  | minute => "MINUTE"
  | hour => "HOUR"
  | day => "DAY"

def ofName? : String → Option RateUnit
  | "SECOND" => some second
  | "MINUTE" => some minute
  | "HOUR" => some hour
  | "DAY" => some day
  | _ => none

end RateUnit

/-- Whether an entry belongs to a service: its marker stands in the value. -/
def GlobalDescriptor.belongsTo (d : GlobalDescriptor) (service : ResourceId) : Bool :=
  Text.occurs service.marker.toList d.value.toList

namespace Registry

/-- The document with the entries of a service replaced by `descriptors`, which come last. The
others keep their order. -/
def merged (r : Registry) (domain : String) (service : ResourceId)
    (descriptors : List GlobalDescriptor) : Registry :=
  { domain
    descriptors := r.descriptors.filter (fun d => !d.belongsTo service) ++ descriptors }

end Registry

end MeshLimiter
