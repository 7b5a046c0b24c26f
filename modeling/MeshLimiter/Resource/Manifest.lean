import MeshLimiter.Json.Reader
import MeshLimiter.Registry.Document
import MeshLimiter.Resource.Document
/-!
# Manifests

The text of a document, read as one of the kinds that the controller knows and written back.
-/

namespace MeshLimiter

/-- The kinds of documents. -/
inductive ManifestKind where
  | limiter
  | proxyFilter
  | trafficRule
  | registry
deriving DecidableEq, Repr

namespace ManifestKind

/-- What a document of a kind reads as, in its written form. The members of patch values are put in
order. -/
def canonical? (kind : ManifestKind) (v : Json) : Option Json :=
  match kind with
  | limiter => (Limiter.ofJson? v).map Limiter.toJson
  | proxyFilter => (ProxyFilter.ofJson? v).map fun p => { p with spec := p.spec.normal }.toJson
  | trafficRule => (TrafficRule.ofJson? v).map TrafficRule.toJson
  | registry => (Registry.ofJson? v).map Registry.toJson

def readText? (kind : ManifestKind) (text : String) : Option Json :=
  (Json.parse? text).bind kind.canonical?

end ManifestKind

end MeshLimiter
