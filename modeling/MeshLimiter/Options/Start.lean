import MeshLimiter.Index.Basic
import MeshLimiter.Options.Reading
import MeshLimiter.Pass.Settings
import MeshLimiter.Query.Yaml
/-!
# Starting the controller

What is checked before the cluster is contacted, what the options come to, and how a run ends that
is stopped as soon as it has started.
-/

namespace MeshLimiter

/-- Why the controller cannot start. -/
inductive StartError where
  | noWorkers
  | noInterval
  /-- The metric queries cannot be read. -/
  | metricConfig
deriving DecidableEq, Repr

/-- The wording of an error, where it has one of its own. -/
def StartError.message? : StartError → Option String
  | noWorkers => some "--workers must be at least 1"
  | noInterval => some "--refresh-interval-secs must be at least 1"
  | metricConfig => none

/-- What a start finds around it. -/
structure Surroundings where
  /-- The text of a file, if it can be read. -/
  fileText : String → Option String
  /-- Whether options lead to a cluster. -/
  leadsToCluster : ClientOptions → Bool
  /-- Whether the cluster says that it knows traffic rules. -/
  knowsTrafficRules : Bool := false

namespace Options

def handlers? (o : Options) (fileText : String → Option String) : Option Handlers :=
  match o.metricConfig with
  | none => some .builtIn
  | some path => (fileText path).bind Handlers.ofYaml?

/-- The handlers to start with, unless something is wrong with the options. -/
def check (o : Options) (fileText : String → Option String) : Except StartError Handlers :=
  if o.workers = 0 then .error .noWorkers
  else if o.refreshInterval = 0 then .error .noInterval
  else
    match o.handlers? fileText with
    | some hs => .ok hs
    | none => .error .metricConfig

def settings (o : Options) (handlers : Handlers) : Settings :=
  { handlers
    compile := o.rateLimit
    registry := o.registry
    registryDomain := o.rateLimit.domain
    maxSubsets := o.maxSubsetQueries
    clusterDomain := o.clusterDomain }

/-- The most limiters that can wait for a pass after a change. -/
def specQueueCapacity : Nat := 65536

/-- The indexes before anything is watched. -/
def indexes (o : Options) : Indexes :=
  .empty o.clusterDomain specQueueCapacity o.metricQueueCapacity

/-- The part of the controller that reports its start. -/
def startTarget : String := "limiter_controller_runtime::args"

def startEvents (o : Options) (knowsTrafficRules : Bool) : List LogEvent :=
  let skipped : LogEvent := {
    level := .warn
    target := startTarget
    message := "destinationrules.networking.istio.io resource kind not found, skipping watches" }
  let started : LogEvent := {
    level := .info
    target := startTarget
    message := "Started"
    fields := [("workers", .ofNat o.workers), ("refresh_interval_secs", .ofNat o.refreshInterval)] }
  if knowsTrafficRules then [started] else [skipped, started]

end Options

/-- How a run ended, and what it reported. -/
structure RunReport where
  exitCode : UInt8
  log : List LogEvent := []
deriving DecidableEq, Repr

namespace RunReport

/-- A run that is stopped as soon as it has started. One that cannot start has the exit code 1,
every other 0. -/
def ofOptions (o : Options) (around : Surroundings) : RunReport :=
  match o.check around.fileText with
  | .error _ => { exitCode := 1 }
  | .ok _ =>
    if around.leadsToCluster o.client then
      { exitCode := 0
        log := (o.startEvents around.knowsTrafficRules).filter o.logFilter.admits }
    else { exitCode := 1 }

/-- A run with a command line. One that is not understood has the exit code 2. -/
def ofArguments (arguments : List String) (around : Surroundings) : RunReport :=
  match Options.ofArguments arguments with
  | .error _ => { exitCode := 2 }
  | .ok o => ofOptions o around

end RunReport

end MeshLimiter
