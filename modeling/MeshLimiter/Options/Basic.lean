import MeshLimiter.Compile.Plan
import MeshLimiter.Json.Basic
import MeshLimiter.Log.Filter
import MeshLimiter.Options.Address
/-!
# Options

What can be set when the controller is started, the flag that sets each, and the value that holds
without it.
-/

namespace MeshLimiter

/-- How events are written. -/
inductive LogFormat where
  | plain
  | json
deriving DecidableEq, Repr

/-- How the cluster is found, and who acts on it. -/
structure ClientOptions where
  cluster : Option String := none
  context : Option String := none
  /-- The file that says how clusters are reached. -/
  kubeconfig : Option String := none
  user : Option String := none
  actAs : Option String := none
  actAsGroup : Option String := none
deriving DecidableEq, Repr

/-- What can be set when the controller is started. -/
structure Options where
  /-- The filter for events; the controller's own are shown from the level of information on. -/
  logFilter : LogFilter :=
    { directives := [{ target := some "limiter_controller", threshold := some .info },
        { threshold := some .warn }] }
  logFormat : LogFormat := .plain
  client : ClientOptions := {}
  adminAddress : SocketAddress := { host := .four [0, 0, 0, 0], port := 8080 }
  prometheusAddress : String := "http://prometheus.istio-system:9090"
  /-- In milliseconds. -/
  prometheusTimeout : Nat := 5000
  /-- The file with the metric queries. -/
  metricConfig : Option String := none
  /-- In seconds. -/
  refreshInterval : Nat := 30
  workers : Nat := 4
  metricQueueCapacity : Nat := 1024
  maxSubsetQueries : Nat := 32
  registry : ResourceId := { ns := "istio-system", name := "rate-limit-config" }
  rateLimit : CompileConfig := {}
  /-- The revision of the mesh that limiters must carry to be watched. -/
  revision : Option String := none
  /-- In milliseconds. -/
  apiTimeout : Nat := 5000
  clusterDomain : String := defaultClusterDomain
deriving DecidableEq, Repr

/-- The flags. -/
inductive Flag where
  | logLevel
  | logFormat
  | cluster
  | context
  | kubeconfig
  | user
  | actAs
  | actAsGroup
  | adminAddress
  | prometheusAddress
  | prometheusTimeout
  | metricConfig
  | refreshInterval
  | workers
  | metricQueueCapacity
  | maxSubsetQueries
  | registryNamespace
  | registryName
  | rateLimitDomain
  | rateLimitService
  | revision
  | apiTimeout
  | clusterDomain
deriving DecidableEq, Repr

namespace Flag

def all : List Flag :=
  [logLevel, logFormat, cluster, context, kubeconfig, user, actAs, actAsGroup, adminAddress,
    prometheusAddress, prometheusTimeout, metricConfig, refreshInterval, workers,
    metricQueueCapacity, maxSubsetQueries, registryNamespace, registryName, rateLimitDomain,
    rateLimitService, revision, apiTimeout, clusterDomain]

/-- The name of a flag, which stands after two dashes. -/
def name : Flag → String
  | logLevel => "log-level"
  | logFormat => "log-format"
  | cluster => "cluster"
  | context => "context"
  | kubeconfig => "kubeconfig"
  | user => "user"
  | actAs => "as"
  | actAsGroup => "as-group"
  | adminAddress => "admin-addr"
  | prometheusAddress => "prometheus-addr"
  | prometheusTimeout => "prometheus-timeout-ms"
  | metricConfig => "metric-config"
  | refreshInterval => "refresh-interval-secs"
  | workers => "workers"
  | metricQueueCapacity => "metric-queue-capacity"
  | maxSubsetQueries => "max-subset-queries"
  | registryNamespace => "ratelimit-config-namespace"
  | registryName => "ratelimit-config-name"
  | rateLimitDomain => "ratelimit-domain"
  | rateLimitService => "ratelimit-service-cluster"
  | revision => "revision"
  | apiTimeout => "api-timeout-ms"
  | clusterDomain => "cluster-domain"

def ofName? (name : String) : Option Flag :=
  all.find? (·.name == name)

/-- Whether the value of a flag is the path of a file, which cannot be empty. -/
def isPath : Flag → Bool
  | kubeconfig => true
  | metricConfig => true
  | _ => false

end Flag

namespace LogFormat

def ofName? : String → Option LogFormat
  | "plain" => some plain
  | "json" => some json
  | _ => none

end LogFormat

namespace Options

def number? (text : String) : Option Nat :=
  (Decimal.readNat? text.toList).filter (· < Nat.pow 2 64)

/-- The options after a flag has set one of them; none if the value is no value for it. -/
def set? (o : Options) (flag : Flag) (value : String) : Option Options :=
  match flag with
  | .logLevel => (LogFilter.ofText? value).map fun logFilter => { o with logFilter }
  | .logFormat => (LogFormat.ofName? value).map fun logFormat => { o with logFormat }
  | .cluster => some { o with client := { o.client with cluster := some value } }
  | .context => some { o with client := { o.client with context := some value } }
  | .kubeconfig => some { o with client := { o.client with kubeconfig := some value } }
  | .user => some { o with client := { o.client with user := some value } }
  | .actAs => some { o with client := { o.client with actAs := some value } }
  | .actAsGroup => some { o with client := { o.client with actAsGroup := some value } }
  | .adminAddress => (SocketAddress.ofText? value).map fun adminAddress => { o with adminAddress }
  | .prometheusAddress => some { o with prometheusAddress := value }
  | .prometheusTimeout => (number? value).map fun n => { o with prometheusTimeout := n }
  | .metricConfig => some { o with metricConfig := some value }
  | .refreshInterval => (number? value).map fun n => { o with refreshInterval := n }
  | .workers => (number? value).map fun n => { o with workers := n }
  | .metricQueueCapacity => (number? value).map fun n => { o with metricQueueCapacity := n }
  | .maxSubsetQueries => (number? value).map fun n => { o with maxSubsetQueries := n }
  | .registryNamespace => some { o with registry := { o.registry with ns := value } }
  | .registryName => some { o with registry := { o.registry with name := value } }
  | .rateLimitDomain => some { o with rateLimit := { o.rateLimit with domain := value } }
  | .rateLimitService => some { o with rateLimit := { o.rateLimit with rateLimitService := value } }
  | .revision => some { o with revision := some value }
  | .apiTimeout => (number? value).map fun n => { o with apiTimeout := n }
  | .clusterDomain => some { o with clusterDomain := value }

/-- The value that a flag sets, for those that say what the controller does. -/
def value? (o : Options) : Flag → Option Json
  | .prometheusAddress => some (.str o.prometheusAddress)
  | .prometheusTimeout => some (.ofNat o.prometheusTimeout)
  | .metricConfig => some ((o.metricConfig.map .str).getD .null)
  | .refreshInterval => some (.ofNat o.refreshInterval)
  | .workers => some (.ofNat o.workers)
  | .metricQueueCapacity => some (.ofNat o.metricQueueCapacity)
  | .maxSubsetQueries => some (.ofNat o.maxSubsetQueries)
  | .registryNamespace => some (.str o.registry.ns)
  | .registryName => some (.str o.registry.name)
  | .rateLimitDomain => some (.str o.rateLimit.domain)
  | .rateLimitService => some (.str o.rateLimit.rateLimitService)
  | .revision => some ((o.revision.map .str).getD .null)
  | .apiTimeout => some (.ofNat o.apiTimeout)
  | .clusterDomain => some (.str o.clusterDomain)
  | _ => none

/-- The written form: a member for each option that says what the controller does, named as its flag
but with underscores. -/
def toJson (o : Options) : Json :=
  .obj (Flag.all.filterMap fun flag =>
    (o.value? flag).map fun v =>
      (String.ofList (flag.name.toList.map fun c => if c = '-' then '_' else c), v))

end Options

end MeshLimiter
