import MeshLimiter.Compile.Plan
import MeshLimiter.Query.Basic
import MeshLimiter.Work.Backoff
/-!
# Settings

What is configured once for all passes.
-/

namespace MeshLimiter

/-- What is configured once for all passes. -/
structure Settings where
  handlers : Handlers := .builtIn
  compile : CompileConfig := {}
  /-- Where the registry is kept. -/
  registry : ResourceId := { ns := "istio-system", name := "rate-limit-config" }
  /-- The domain that the registry is for. -/
  registryDomain : String := "default"
  /-- The most subsets that a query is asked for. -/
  maxSubsets : Nat := 32
  clusterDomain : String := defaultClusterDomain
  backoff : Backoff := {}

end MeshLimiter
