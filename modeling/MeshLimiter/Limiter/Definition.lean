import MeshLimiter.Json.Basic
/-!
# The definition of the limiter resource

What a cluster is told so that it stores limiters: the names of the kind, and the schema of its
documents. Fields that may be left out may also be null, or have the default that the schema gives.
-/

namespace MeshLimiter

/-- The schema of a value, as members of an object. -/
abbrev Schema := List (String × Json)

namespace Schema

def text : Schema := [("type", .str "string")]

def bool : Schema := [("type", .str "boolean")]

def integer (format : String) : Schema :=
  [("type", .str "integer"), ("format", .str format)]

def list (items : Schema) : Schema :=
  [("type", .str "array"), ("items", .obj items)]

def map (values : Schema) : Schema :=
  [("type", .str "object"), ("additionalProperties", .obj values)]

/-- A record; the fields that must be given come by name. -/
def record (required : List String) (fields : List (String × Schema)) : Schema :=
  [("type", .str "object"), ("properties", .obj (fields.map fun (name, s) => (name, .obj s)))]
    ++ if required.isEmpty then [] else [("required", .arr (required.map .str))]

/-- A whole number in a format without negative numbers. -/
def natural (format : String) : Schema :=
  ("minimum", .num (.real 0)) :: integer format

def described (s : Schema) (description : String) : Schema :=
  ("description", .str description) :: s

/-- The schema with a value for when none is given. -/
def usually (s : Schema) (value : Json) : Schema :=
  ("default", value) :: s

def nullable (s : Schema) : Schema :=
  ("nullable", .bool true) :: s

def fillInterval : Schema :=
  (record [] [("seconds", (integer "int64").usually (.ofNat 0)),
    ("nanos", integer "int32")]).described
    "A protobuf-style duration, e.g. \x60\x7bseconds: 60\x7d\x60."

def action : Schema :=
  record ["fillInterval", "quota"]
    [("quota", text.described ("A numeric template expression yielding the number of requests "
        ++ "permitted per fill interval.")),
      ("fillInterval", fillInterval),
      ("strategy",
        usually (("enum", .arr [.str "local", .str "global"]) :: text) (.str "local")),
      ("rateLimitService", text.nullable.described ("The cluster of the global rate limit service. "
        ++ "Only meaningful for the global strategy."))]

def headerMatcher : Schema :=
  (record ["name"]
    [("name", text), ("regexMatch", text.nullable), ("exactMatch", text.nullable),
      ("prefixMatch", text.nullable), ("suffixMatch", text.nullable),
      ("presentMatch", bool.nullable), ("isExactMatchEmpty", bool),
      ("invertMatch", bool)]).described
    ("Matches a request header. Exactly one match specifier is expected; when several are set, "
      ++ "\x60regexMatch\x60 wins over \x60exactMatch\x60, then \x60prefixMatch\x60, "
      ++ "\x60suffixMatch\x60, \x60isExactMatchEmpty\x60 and finally \x60presentMatch\x60.")

def target : Schema :=
  record []
    [("direction", text.nullable.described "Traffic direction; defaults to \x60inbound\x60."),
      ("port", (natural "uint16").nullable.described
        "When unset, the rule applies to every port.")]

def descriptor : Schema :=
  (record []
    [("condition", (text.usually (.str "")).described
        "A boolean template expression evaluated against the service's metrics."),
      ("action", action.nullable),
      ("match", (list headerMatcher).described ("Header matchers. When set, the rule keys on "
        ++ "\x60header_match\x60 rather than \x60generic_key\x60.")),
      ("target", target.nullable),
      ("customKey", text.nullable.described
        ("Overrides the generated descriptor key. Route actions "
        ++ "for custom descriptors are managed outside of this controller.")),
      ("customValue", text.nullable)]).described
    "A single rate limit rule."

/-- The schema of the descriptors of a subset. -/
def descriptorSet : Schema :=
  record [] [("descriptor", (list descriptor).usually (.arr []))]

def spec : Schema :=
  (record [] [("sets", (map descriptorSet).usually (.obj []))]).described
    ("Declares rate limits for a Service, keyed by traffic subset.\n\nThe resource is named after "
      ++ "the Service it limits. The reserved \x60_base\x60 subset applies to every pod backing "
      ++ "the Service.")

def status : Schema :=
  record []
    [("ratelimitStatus", ((map descriptorSet).usually (.obj [])).described
        "Descriptors that passed evaluation, by subset, with resolved quotas."),
      ("metricStatus", ((map text).usually (.obj [])).described
        "The metric values the descriptors were evaluated against.")]

/-- The schema of a limiter; what every object has is left to the cluster. -/
def limiter : Schema :=
  ("title", .str "SmartLimiter") ::
    (record ["spec"] [("spec", spec), ("status", status.nullable)]).described
      "Auto-generated derived type for SmartLimiterSpec via \x60CustomResource\x60"

end Schema

def limiterGroup : String := "microservice.slime.io"

/-- The only version of the resource kind: it is served and stored, and its status is written apart
from the rest. -/
def limiterVersion : Json :=
  .obj [("name", .str "v1alpha2"), ("served", .bool true), ("storage", .bool true),
    ("schema", .obj [("openAPIV3Schema", .obj Schema.limiter)]),
    ("additionalPrinterColumns", .arr []), ("selectableFields", .arr []),
    ("subresources", .obj [("status", .obj [])])]

def limiterDefinition : Json :=
  .obj [("apiVersion", .str "apiextensions.k8s.io/v1"), ("kind", .str "CustomResourceDefinition"),
    ("metadata", .obj [("name", .str ("smartlimiters." ++ limiterGroup))]),
    ("spec", .obj [("group", .str limiterGroup), ("scope", .str "Namespaced"),
      ("names", .obj [("categories", .arr []), ("kind", .str "SmartLimiter"),
        ("plural", .str "smartlimiters"), ("shortNames", .arr [.str "limiter"]),
        ("singular", .str "smartlimiter")]),
      ("versions", .arr [limiterVersion])])]

end MeshLimiter
