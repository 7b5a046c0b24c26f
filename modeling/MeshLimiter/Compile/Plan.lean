import MeshLimiter.Compile.Fragment
import MeshLimiter.Compile.Resolution
import MeshLimiter.Compile.VirtualHost
import MeshLimiter.Digest.Sha256
import MeshLimiter.Json.Writer
import MeshLimiter.Limiter.Document
import MeshLimiter.Registry.Basic
/-!
# The plan for a subset

The rules in force for a subset become patches, in this order: the actions of each virtual host; the
filter for the shared service, if a rule is shared; the filter for counting in the proxy, if a rule
is not, and then the table of each virtual host. Rules keep their order within a host. A rule with
an entry of its own gets no action, since its route is looked after elsewhere.

A rule is custom if its descriptor gives key and value itself, and shared if its strategy is. The
value that is generated for a rule names the service and ends with the checksum of its descriptor.
-/

namespace MeshLimiter

/-- What all filters have in common. -/
structure CompileConfig where
  domain : String := "default"
  rateLimitService : String := "outbound|18081||rate-limit.istio-system.svc.cluster.local"
deriving DecidableEq, Repr

/-- The text that identifies a rule of a limiter. -/
def checksumInput (id : ResourceId) (d : Descriptor) : String :=
  d.toJson.compact ++ id.path

/-- The value of the entry of a rule: the marker of its service and a checksum. -/
def descriptorValue (id : ResourceId) (d : Descriptor) : String :=
  let sum := Digest.checksum (checksumInput id d).toUTF8.toList
  id.marker ++ "-User[none]-Id[" ++ Decimal.natText sum.toNat ++ "]"

/-- A rule in force, with what identifies it and where it applies. -/
structure Rule where
  descriptor : Descriptor
  action : Action
  quota : UInt64
  value : String
  vhost : VirtualHost
deriving DecidableEq, Repr

namespace Rule

def ofResolved? (id : ResourceId) (r : Resolved) : Option Rule :=
  r.descriptor.action.map fun action =>
    { descriptor := r.descriptor
      action
      quota := r.quota
      value := descriptorValue id r.descriptor
      vhost := .ofTarget r.descriptor.target }

/-- Whether the shared service counts the requests. -/
def isShared (r : Rule) : Bool :=
  r.action.strategy == .shared

/-- Whether the rule has an entry of its own. -/
def isCustom (r : Rule) : Bool :=
  r.descriptor.customEntry?.isSome

/-- The key of the entry that the action of the rule gives. -/
def entryKey (r : Rule) : String :=
  if r.descriptor.matchers.isEmpty then genericKey else headerMatchKey

/-- The action that gives requests the entry of the rule. -/
def routeAction (r : Rule) : RouteAction :=
  if r.descriptor.matchers.isEmpty then .generic r.value
  else .headerMatch r.value (r.descriptor.matchers.map HeaderCondition.ofMatcher)

/-- The entry that a proxy counts: the rule's own, or the generated one. -/
def localEntry (r : Rule) : DescriptorEntry :=
  match r.descriptor.customEntry? with
  | some (key, value) => { key, value }
  | none => { key := r.entryKey, value := r.value }

/-- The largest bucket that a proxy takes. -/
def tokens (quota : UInt64) : UInt32 :=
  UInt32.ofNat (min quota.toNat (Nat.pow 2 32 - 1))

/-- The entry with its bucket. -/
def localDescriptor (r : Rule) : LocalDescriptor :=
  { entry := r.localEntry
    bucket := { tokens := tokens r.quota, interval := r.action.fillInterval.text } }

/-- The entry for the registry; none if the interval is no unit of the shared service. -/
def globalDescriptor? (r : Rule) : Option GlobalDescriptor :=
  (RateUnit.ofInterval? r.action.fillInterval).map fun unit =>
    { key := r.entryKey, value := r.value, rateLimit := { requestsPerUnit := r.quota, unit } }

end Rule

/-- Where a patch goes: to the routes of virtual hosts, or before the router of inbound traffic. -/
inductive PatchSite where
  | routes (vhost : VirtualHost)
  | beforeRouter
deriving DecidableEq, Repr

/-- A patch before it is put in the form of the mesh. -/
structure PlannedPatch where
  site : PatchSite
  fragment : Fragment
deriving DecidableEq, Repr

namespace PatchSite

/-- The place of the HTTP router in the inbound filter chain. -/
def routerPlace : ObjectMatch :=
  { context := some .sidecarInbound
    listener := some { filterChain := some { filter := some {
      name := "envoy.filters.network.http_connection_manager"
      subFilter := some "envoy.filters.http.router" } } } }

end PatchSite

/-- The patch in the form of the mesh: routes are merged into, filters are inserted. -/
def PlannedPatch.toConfigPatch (p : PlannedPatch) : ConfigPatch :=
  match p.site with
  | .routes vhost =>
    { applyTo := .httpRoute, place := some vhost.place, operation := .merge
      value := p.fragment.toJson.normal }
  | .beforeRouter =>
    { applyTo := .httpFilter, place := some PatchSite.routerPlace, operation := .insertBefore
      value := p.fragment.toJson.normal }

/-- Rules by virtual host, in the order of the hosts; each host keeps the order of its rules. -/
def groupByHost (rules : List Rule) : List (VirtualHost × List Rule) :=
  (rules.foldl (fun (acc : Std.ExtTreeMap VirtualHost (List Rule)) r =>
    acc.insert r.vhost (acc.getD r.vhost [] ++ [r])) ∅).toList

/-- The cluster of the shared service: the first that a rule names, else the configured one. -/
def sharedCluster (config : CompileConfig) (shared : List Rule) : String :=
  ((shared.filterMap (·.action.rateLimitService)).find? fun s => !s.isEmpty).getD
    config.rateLimitService

/-- The patches for the rules of a subset. -/
def plan (config : CompileConfig) (rules : List Rule) : List PlannedPatch :=
  let shared := rules.filter (·.isShared)
  let own := rules.filter (!·.isShared)
  let actions := (groupByHost (rules.filter (!·.isCustom))).map fun (vhost, rs) =>
    { site := .routes vhost, fragment := .routeActions (rs.map Rule.routeAction) }
  let sharedFilter :=
    if shared.isEmpty then []
    else [{ site := .beforeRouter
            fragment := .sharedFilter config.domain (sharedCluster config shared) }]
  let ownFilter := if own.isEmpty then [] else [{ site := .beforeRouter, fragment := .localFilter }]
  let tables := (groupByHost own).map fun (vhost, rs) =>
    { site := .routes vhost, fragment := .localTable (rs.map Rule.localDescriptor) }
  actions ++ sharedFilter ++ ownFilter ++ tables

/-- The entries of a subset for the registry. -/
def globalEntries (rules : List Rule) : List GlobalDescriptor :=
  (rules.filter (·.isShared)).filterMap Rule.globalDescriptor?

end MeshLimiter
