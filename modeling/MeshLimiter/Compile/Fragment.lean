import MeshLimiter.Filter.Basic
import MeshLimiter.Limiter.Descriptor
/-!
# Fragments of proxy configuration

What the patches put into the configuration of a proxy: actions that make a request carry a
descriptor entry, the filters that count entries, and the tables of entries with their token
buckets. Every fragment has its JSON form in the proxy's schema.

The filters are `envoy.filters.http.ratelimit`, which asks the shared service, and
`envoy.filters.http.local_ratelimit`, which counts in the proxy. A `DescriptorEntry` is the pair of
key and value that route actions give to a request, with the keys `generic_key` and `header_match`.
-/

namespace MeshLimiter

/-- The one way in which a header is matched. -/
inductive HeaderTest where
  | regex (pattern : String)
  | exact (value : String)
  | startsWith (value : String)
  | endsWith (value : String)
  | present (expected : Bool)
deriving DecidableEq, Repr

/-- A condition on a header. -/
structure HeaderCondition where
  name : String
  test : HeaderTest
  inverted : Bool
deriving DecidableEq, Repr

/-- An action of a route: the entry that a request is given, always or if its headers match. -/
inductive RouteAction where
  | generic (value : String)
  | headerMatch (value : String) (headers : List HeaderCondition)
deriving DecidableEq, Repr

/-- A key and value that requests are counted by. -/
structure DescriptorEntry where
  key : String
  value : String
deriving DecidableEq, Repr

/-- A bucket that is filled to the brim once an interval. -/
structure TokenBucket where
  tokens : UInt32
  interval : String
deriving DecidableEq, Repr

/-- An entry with its bucket, counted by each proxy for itself. -/
structure LocalDescriptor where
  entry : DescriptorEntry
  bucket : TokenBucket
deriving DecidableEq, Repr

/-- What a patch puts in its place. -/
inductive Fragment where
  /-- The actions of a route. -/
  | routeActions (actions : List RouteAction)
  /-- The filter that asks the shared service. -/
  | sharedFilter (domain cluster : String)
  /-- The filter that counts in the proxy, without any entry yet. -/
  | localFilter
  /-- The entries that the proxy counts for a route. -/
  | localTable (descriptors : List LocalDescriptor)
deriving DecidableEq, Repr

namespace HeaderTest

/-- The test of a matcher: of the texts that are given and not empty the first, else the empty value
if it is asked for, else whether the header is present. -/
def ofMatcher (m : HeaderMatcher) : HeaderTest :=
  let given (s : Option String) : Option String := s.filter fun t => !t.isEmpty
  match given m.regexMatch, given m.exactMatch, given m.prefixMatch, given m.suffixMatch with
  | some s, _, _, _ => .regex s
  | none, some s, _, _ => .exact s
  | none, none, some s, _ => .startsWith s
  | none, none, none, some s => .endsWith s
  | none, none, none, none =>
    if m.isExactMatchEmpty then .exact "" else .present (m.presentMatch.getD false)

def toMember : HeaderTest → String × Json
  | regex s => ("safe_regex_match", .obj [("google_re2", .obj []), ("regex", .str s)])
  | exact s => ("exact_match", .str s)
  | startsWith s => ("prefix_match", .str s)
  | endsWith s => ("suffix_match", .str s)
  | present b => ("present_match", .bool b)

end HeaderTest

namespace HeaderCondition

def ofMatcher (m : HeaderMatcher) : HeaderCondition :=
  { name := m.name, test := .ofMatcher m, inverted := m.invertMatch }

def toJson (c : HeaderCondition) : Json :=
  .obj ([("name", .str c.name), c.test.toMember] ++ Json.flag? "invert_match" c.inverted)

end HeaderCondition

/-- The key of the entry that a generic action gives. -/
def genericKey : String := "generic_key"

/-- The key of the entry that a header action gives. -/
def headerMatchKey : String := "header_match"

namespace RouteAction

def entry : RouteAction → DescriptorEntry
  | generic value => { key := genericKey, value }
  | headerMatch value _ => { key := headerMatchKey, value }

def toJson : RouteAction → Json
  | generic value => .obj [("generic_key", .obj [("descriptor_value", .str value)])]
  | headerMatch value headers =>
    .obj [("header_value_match", .obj [("descriptor_value", .str value),
      ("headers", .arr (headers.map HeaderCondition.toJson))])]

end RouteAction

def DescriptorEntry.toJson (e : DescriptorEntry) : Json :=
  .obj [("key", .str e.key), ("value", .str e.value)]

def TokenBucket.toJson (b : TokenBucket) : Json :=
  .obj [("max_tokens", .ofNat b.tokens.toNat), ("tokens_per_fill", .ofNat b.tokens.toNat),
    ("fill_interval", .str b.interval)]

/-- The JSON form of an entry with its bucket. -/
def LocalDescriptor.toJson (d : LocalDescriptor) : Json :=
  .obj [("entries", .arr [d.entry.toJson]), ("token_bucket", d.bucket.toJson)]

namespace Fragment

/-- The name of the filter that asks the shared service. -/
def sharedFilterName : String := "envoy.filters.http.ratelimit"

/-- The name of the filter that counts in the proxy. -/
def localFilterName : String := "envoy.filters.http.local_ratelimit"

/-- A value with the name of its type, as the mesh wants it wrapped. -/
def typed (type : String) (value : Json) : Json :=
  .obj [("@type", .str "type.googleapis.com/udpa.type.v1.TypedStruct"),
    ("type_url", .str ("type.googleapis.com/envoy.extensions.filters.http." ++ type)),
    ("value", value)]

/-- The type of the configuration of `localFilter`. -/
def localType : String := "local_ratelimit.v3.LocalRateLimit"

/-- The type of the configuration of `sharedFilter`. -/
def sharedType : String := "ratelimit.v3.RateLimit"

/-- The name under which the proxy keeps its statistics. -/
def statistics : String × Json := ("stat_prefix", .str "http_local_rate_limiter")

/-- A share of all requests: every one, unless a runtime key says otherwise. -/
def allRequests (runtimeKey : String) : Json :=
  .obj [("default_value", .obj [("numerator", .ofNat 100), ("denominator", .str "HUNDRED")]),
    ("runtime_key", .str runtimeKey)]

/-- The bucket for requests that match no entry: wide enough to let all of them pass. -/
def permissive : TokenBucket := { tokens := 100000, interval := "1s" }

def tableConfig (descriptors : List LocalDescriptor) : Json :=
  .obj ([statistics, ("token_bucket", permissive.toJson),
    ("filter_enabled", allRequests "local_rate_limit_enabled"),
    ("filter_enforced", allRequests "local_rate_limit_enforced")]
    ++ if descriptors.isEmpty then []
       else [("descriptors", .arr (descriptors.map LocalDescriptor.toJson))])

def toJson : Fragment → Json
  | routeActions actions =>
    .obj [("route", .obj [("rate_limits",
      .arr (actions.map fun a => .obj [("actions", .arr [a.toJson])]))])]
  | sharedFilter domain cluster =>
    .obj [("name", .str sharedFilterName),
      ("typed_config", typed sharedType (.obj [("domain", .str domain),
        ("rate_limit_service", .obj [("grpc_service",
            .obj [("envoy_grpc", .obj [("cluster_name", .str cluster)])]),
          ("transport_api_version", .str "V3")])]))]
  | localFilter =>
    .obj [("name", .str localFilterName), ("typed_config", typed localType (.obj [statistics]))]
  | localTable descriptors =>
    .obj [("typed_per_filter_config",
      .obj [(localFilterName, typed localType (tableConfig descriptors))])]

end Fragment

end MeshLimiter
