import MeshLimiter.Cluster.Error
import MeshLimiter.Metrics.Tally
import MeshLimiter.ResourceId
/-!
# What comes of a pass

The errors that end a pass, and the events that are counted on the way.
-/

namespace MeshLimiter

/-- Why the metrics of a limiter could not be collected. -/
inductive CollectionError where
  | cluster (error : ClusterError)
  | serviceNotFound (id : ResourceId)
deriving DecidableEq, Repr

/-- What is wrong with a limiter. -/
inductive LimiterFlaw where
  | noSets
  | noNamespace
deriving DecidableEq, Repr

/-- Why a pass failed. -/
inductive PassError where
  | invalidLimiter (id : ResourceId) (flaw : LimiterFlaw)
  | cluster (error : ClusterError)
  | collection (error : CollectionError)
  /-- The registry in the cluster could not be read. -/
  | registryUnreadable
deriving DecidableEq, Repr

def LimiterFlaw.message : LimiterFlaw → String
  | noSets => "no descriptor sets"
  | noNamespace => "missing namespace"

namespace PassError

/-- The wording of an error, where it has one of its own. -/
def message? : PassError → Option String
  | invalidLimiter id flaw => some ("invalid SmartLimiter " ++ id.path ++ ": " ++ flaw.message)
  | collection (.serviceNotFound id) => some ("service " ++ id.path ++ " not found")
  | _ => none

/-- Whether the pass failed because an object that it works on did not exist. -/
def isNotFound : PassError → Bool
  | cluster e => e.isNotFound
  | _ => false

/-- Whether the pass failed because an object that it writes had changed. -/
def isConflict : PassError → Bool
  | cluster e => e.isConflict
  | _ => false

end PassError

/-- What became of a query. -/
inductive QueryOutcome where
  | ok
  | empty
  | error
deriving DecidableEq, Repr

/-- What became of the collection of metrics. -/
inductive CollectionOutcome where
  | updated
  | unchanged
  | stale
  | failed
deriving DecidableEq, Repr

/-- What a pass was started by. -/
inductive Trigger where
  | spec
  | metrics
  | delete
deriving DecidableEq, Repr

/-- What became of a pass. -/
inductive PassOutcome where
  | applied
  | unchanged
  | error
deriving DecidableEq, Repr

/-- The kinds of writes. -/
inductive WriteKind where
  | create
  | update
  | delete
deriving DecidableEq, Repr

/-- The events that are counted. -/
inductive PassEvent where
  | query (outcome : QueryOutcome)
  | collection (outcome : CollectionOutcome)
  | pass (trigger : Trigger) (outcome : PassOutcome)
  | filterWrite (kind : WriteKind)
  | registryWrite (kind : WriteKind)
deriving DecidableEq, Repr

abbrev PassCounts := Tally PassEvent

def PassOutcome.ofResult {ε α : Type} : Except ε α → PassOutcome
  | .ok _ => applied
  | .error _ => error

def QueryOutcome.name : QueryOutcome → String
  | ok => "ok"
  | empty => "empty"
  | error => "error"

def CollectionOutcome.name : CollectionOutcome → String
  | updated => "updated"
  | unchanged => "unchanged"
  | stale => "stale"
  | failed => "failed"

def Trigger.name : Trigger → String
  | spec => "spec"
  | metrics => "metrics"
  | delete => "delete"

def PassOutcome.name : PassOutcome → String
  | applied => "applied"
  | unchanged => "unchanged"
  | error => "error"

def WriteKind.name : WriteKind → String
  | create => "create"
  | update => "update"
  | delete => "delete"

namespace PassCounts

def writeKinds : List WriteKind := [.create, .update, .delete]

/-- The lines on the collection of metrics, under names that begin with `lead`. -/
def collectionLines (counts : PassCounts) (lead : String) : List String :=
  Exposition.family (lead ++ "queries") (fun o => [("result", o.name)])
      [QueryOutcome.ok, .empty, .error] ⟨fun o => counts.count (.query o)⟩
    ++ Exposition.family (lead ++ "refreshes") (fun o => [("outcome", o.name)])
      [CollectionOutcome.updated, .unchanged, .stale, .failed]
      ⟨fun o => counts.count (.collection o)⟩

def registryLines (counts : PassCounts) (lead : String) : List String :=
  Exposition.family (lead ++ "registry_writes") (fun k => [("operation", k.name)]) writeKinds
    ⟨fun k => counts.count (.registryWrite k)⟩

/-- The lines on passes and writes of filters. -/
def passLines (counts : PassCounts) (lead : String) : List String :=
  let kinds := [Trigger.spec, .metrics, .delete].flatMap fun t =>
    [PassOutcome.applied, .unchanged, .error].map fun o => (t, o)
  Exposition.family (lead ++ "passes") (fun (t, o) => [("trigger", t.name), ("outcome", o.name)])
      kinds ⟨fun (t, o) => counts.count (.pass t o)⟩
    ++ Exposition.family (lead ++ "envoy_filter_writes") (fun k => [("operation", k.name)])
      writeKinds ⟨fun k => counts.count (.filterWrite k)⟩

end PassCounts

end MeshLimiter
