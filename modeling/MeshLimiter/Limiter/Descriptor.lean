import MeshLimiter.Limiter.Interval
import Std.Data.ExtTreeMap
/-!
# Limiters

A limiter lists, for each subset of a service, descriptors: a condition on metrics, the quota that
holds while it does, and the requests it is meant for. Its status records the descriptors that held
and the metrics they were judged by.

A limiter is an object of the kind `SmartLimiter`. Its specification has the descriptors of a subset
under `sets`, and each has its matchers under `match`; the strategy is written `local` for
`Strategy.perProxy` and `global` for `Strategy.shared`. In the status `ratelimitStatus` has the
descriptors and `metricStatus` the metrics.
-/

namespace MeshLimiter

/-- Who counts the requests: each proxy for itself, or the shared rate limit service. -/
inductive Strategy where
  | perProxy
  | shared
deriving DecidableEq, Repr

/-- What a descriptor does while its condition holds. -/
structure Action where
  quota : String
  fillInterval : FillInterval
  strategy : Strategy := .perProxy
  rateLimitService : Option String := none
deriving DecidableEq, Repr

/-- A condition on a request header. One of the ways to match is meant to be given. -/
structure HeaderMatcher where
  name : String
  regexMatch : Option String := none
  exactMatch : Option String := none
  prefixMatch : Option String := none
  suffixMatch : Option String := none
  presentMatch : Option Bool := none
  isExactMatchEmpty : Bool := false
  invertMatch : Bool := false
deriving DecidableEq, Repr

/-- The traffic that a descriptor is for: a direction, and a port or all of them. -/
structure Target where
  direction : Option String := none
  port : Option UInt16 := none
deriving DecidableEq, Repr

/-- One rate limit rule. -/
structure Descriptor where
  condition : String := ""
  action : Option Action := none
  matchers : List HeaderMatcher := []
  target : Option Target := none
  customKey : Option String := none
  customValue : Option String := none
deriving DecidableEq, Repr

namespace Descriptor

/-- The key and value given instead of generated ones, if both are given and neither is empty. -/
def customEntry? (d : Descriptor) : Option (String × String) :=
  match d.customKey, d.customValue with
  | some k, some v => if k.isEmpty || v.isEmpty then none else some (k, v)
  | _, _ => none

/-- The strategy of the action, if there is one. -/
def strategy? (d : Descriptor) : Option Strategy :=
  d.action.map (·.strategy)

/-- The descriptor with its quota replaced by a number. -/
def withQuota (d : Descriptor) (quota : UInt64) : Descriptor :=
  { d with action := d.action.map fun a => { a with quota := Decimal.natText quota.toNat } }

end Descriptor

instance : LawfulBEq (List Descriptor) := inferInstance

/-- What is wanted of a limiter: the descriptors of each subset. -/
structure LimiterSpec where
  sets : Std.ExtTreeMap String (List Descriptor) := ∅
deriving DecidableEq

/-- What is in force: the descriptors that held, by subset, with their quotas as numbers, and the
metrics. -/
structure LimiterStatus where
  inForce : Std.ExtTreeMap String (List Descriptor) := ∅
  metrics : Std.ExtTreeMap String String := ∅
deriving DecidableEq

end MeshLimiter
