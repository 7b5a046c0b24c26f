import MeshLimiter.Registry.Basic
import MeshLimiter.Yaml.Record
import MeshLimiter.Yaml.Writer
/-!
# The registry in YAML

The form in which the registry is kept in the cluster. Main definitions: `Registry.ofYaml?` reads a
document and `Registry.toYaml` writes one.
-/

namespace MeshLimiter

open Yaml (Node)

def RateUnit.ofNode? (n : Node) : Option RateUnit :=
  n.name?.bind ofName?

def RateLimit.ofNode? (n : Node) : Option RateLimit := do
  let f ← n.fields? 2
  return {
    requestsPerUnit := ← f.required 0 "requests_per_unit" Node.uint64?
    unit := ← f.required 1 "unit" RateUnit.ofNode? }

def GlobalDescriptor.ofNode? (n : Node) : Option GlobalDescriptor := do
  let f ← n.fields? 3
  return {
    key := ← f.required 0 "key" Node.text?
    value := ← f.required 1 "value" Node.text?
    rateLimit := ← f.required 2 "rate_limit" RateLimit.ofNode? }

def GlobalDescriptor.toYaml (d : GlobalDescriptor) : String :=
  "- key: " ++ Yaml.Writer.scalarLines 4 d.key
    ++ "  value: " ++ Yaml.Writer.scalarLines 4 d.value
    ++ "  rate_limit:\n"
    ++ "    requests_per_unit: " ++ Decimal.natText d.rateLimit.requestsPerUnit.toNat ++ "\n"
    ++ "    unit: " ++ d.rateLimit.unit.name ++ "\n"

namespace Registry

def ofNode? (n : Node) : Option Registry := do
  let f ← n.fields? 2
  return {
    domain := ← f.required 0 "domain" Node.text?
    descriptors := ← f.withDefault 1 "descriptors" [] (Node.listOf? GlobalDescriptor.ofNode?) }

def ofYaml? (text : String) : Option Registry :=
  (Node.ofText? text).bind ofNode?

def toYaml (r : Registry) : String :=
  "domain: " ++ Yaml.Writer.scalarLines 2 r.domain
    ++ if r.descriptors.isEmpty then "descriptors: []\n"
      else "descriptors:\n" ++ String.join (r.descriptors.map GlobalDescriptor.toYaml)

end Registry

end MeshLimiter
