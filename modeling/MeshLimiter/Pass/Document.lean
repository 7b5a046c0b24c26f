import MeshLimiter.Pass.Settings
import MeshLimiter.Query.Document
/-!
# Settings as documents

The JSON form of the settings. What is not given has its usual value.
-/

namespace MeshLimiter

def CompileConfig.ofJson? (v : Json) : Option CompileConfig := do
  let f := Json.Fields.named (← v.members?)
  let usual : CompileConfig := {}
  return {
    domain := (← f.optional 0 "domain" Json.text?).getD usual.domain
    rateLimitService := (← f.optional 1 "rate_limit_service" Json.text?).getD
      usual.rateLimitService }

namespace Settings

/-- Reads where the registry is kept and what it is for into settings. -/
def withRegistryOf? (s : Settings) (v : Json) : Option Settings := do
  let f := Json.Fields.named (← v.members?)
  return { s with
    registry := {
      ns := ← f.withDefault 0 "namespace" s.registry.ns Json.text?
      name := ← f.withDefault 1 "name" s.registry.name Json.text? }
    registryDomain := ← f.withDefault 2 "domain" s.registryDomain Json.text? }

def ofJson? (v : Json) : Option Settings := do
  let f := Json.Fields.named (← v.members?)
  let usual ← f.withDefault 0 "registry" {} (withRegistryOf? {})
  return { usual with
    handlers := (← f.optional 1 "handlers" Handlers.ofJson?).getD usual.handlers
    compile := ← f.withDefault 2 "config" {} CompileConfig.ofJson?
    maxSubsets := (← f.optional 3 "max_subset_queries" (Json.natOfBits? 64)).getD usual.maxSubsets
    clusterDomain := (← f.optional 4 "cluster_domain" Json.text?).getD usual.clusterDomain }

end Settings

end MeshLimiter
