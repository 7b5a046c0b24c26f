import MeshLimiter.Limiter.Document
import MeshLimiter.Registry.Basic
/-!
# The registry in JSON

The form in which the shared service reads its descriptors.
-/

namespace MeshLimiter

open Json (fields?)

namespace RateUnit

def ofJson? (v : Json) : Option RateUnit :=
  v.name?.bind ofName?

end RateUnit

namespace RateLimit

def toJson (l : RateLimit) : Json :=
  .obj [("requests_per_unit", .ofNat l.requestsPerUnit.toNat), ("unit", .str l.unit.name)]

def ofJson? (v : Json) : Option RateLimit := do
  let f ← fields? 2 v
  return {
    requestsPerUnit := ← f.required 0 "requests_per_unit" Json.uint64?
    unit := ← f.required 1 "unit" RateUnit.ofJson? }

end RateLimit

namespace GlobalDescriptor

def toJson (d : GlobalDescriptor) : Json :=
  .obj [("key", .str d.key), ("value", .str d.value), ("rate_limit", d.rateLimit.toJson)]

def ofJson? (v : Json) : Option GlobalDescriptor := do
  let f ← fields? 3 v
  return {
    key := ← f.required 0 "key" Json.text?
    value := ← f.required 1 "value" Json.text?
    rateLimit := ← f.required 2 "rate_limit" RateLimit.ofJson? }

end GlobalDescriptor

namespace Registry

def toJson (r : Registry) : Json :=
  .obj
    [("domain", .str r.domain), ("descriptors", .arr (r.descriptors.map GlobalDescriptor.toJson))]

def ofJson? (v : Json) : Option Registry := do
  let f ← fields? 2 v
  return {
    domain := ← f.required 0 "domain" Json.text?
    descriptors := ← f.withDefault 1 "descriptors" [] (Json.listOf? GlobalDescriptor.ofJson?) }

end Registry

end MeshLimiter
