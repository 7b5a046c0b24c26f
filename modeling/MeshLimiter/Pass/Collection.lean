import MeshLimiter.Pass.Settings
import MeshLimiter.Program.Basic
import MeshLimiter.Query.Pods
/-!
# Collecting metrics

The first part of a pass finds the pods of the service and asks the metrics backend about them. A
query that fails keeps what an earlier pass had stored for it; if every query fails, the whole
earlier material stays.

`Collected.gather` takes in one reply after another: `takeIn` stores a sample, or carries over what
was held for a query that failed.
-/

namespace MeshLimiter

/-- What is known of a service once its metrics are collected. -/
structure Collected where
  material : Material
  revision : Nat
  /-- The labels that pick the pods of the service. -/
  selector : Labels
  /-- The subsets of the service besides the base subset. -/
  subsets : List Subset
deriving DecidableEq

namespace Collected

/-- The number of pods of each subset, under the name of the subset and `pod`. -/
def podCounts (groups : PodGroups) : Material :=
  groups.foldl (fun m subset pods => m.insert (subset ++ ".pod") (Decimal.natText pods.length)) {}

/-- Takes in what a query gave. -/
def takeIn (previous m : Material) (q : Query) : QueryReply → Material × QueryOutcome
  | .ok sample =>
    match Sample.store? m q sample with
    | some m => (m, .ok)
    | none => (m, .empty)
  | .error _ => (q.carryOver previous m, .error)

/-- Takes in what the queries gave, in order. -/
def gather (previous : Material) : Material → List (Query × QueryReply) →
    Material × List QueryOutcome
  | m, [] => (m, [])
  | m, (q, r) :: more =>
    let (m, outcome) := takeIn previous m q r
    let (m, outcomes) := gather previous m more
    (m, outcome :: outcomes)

/-- The pods of a service. A service that selects nothing has none that could be found. -/
def findPods (id : ResourceId) (selector : Labels) : Attempt CollectionError (List Pod) :=
  if selector.isEmpty then return []
  else Attempt.call .cluster (.pods id.ns selector)

/-- Asks all queries at once. -/
def ask (queries : List Query) : Program (List QueryReply) := do
  let texts := queries.map (·.query)
  let time : Nat ← Program.step (.sendQueries texts)
  Program.command (.sleepUntil time)
  Program.step (.receiveAnswers texts)

/-- Collects the metrics of a limiter into its entry. -/
def collect (s : Settings) (id : ResourceId) (e : EntryId) : Attempt CollectionError Collected := do
  let found : Option Service ← Attempt.call .cluster (.service id)
  let some service := found | throw (.serviceNotFound id)
  let selector := service.podSelector
  let subsets : List Subset ← (Program.step (.subsetsOf (id.serviceHost s.clusterDomain)) :)
  let groups := PodGroups.ofPods (← findPods id selector) subsets
  let queries := Query.render id groups s.handlers s.maxSubsets
  let replies ← (ask queries :)
  let previous : Entry ← (Program.step (.readEntry e) :)
  let (material, outcomes) := gather previous.material (podCounts groups) (queries.zip replies)
  for o in outcomes do Program.count (.query o)
  if !outcomes.isEmpty && outcomes.all (· = .error) then
    Program.count (.collection .stale)
    return { material := previous.material, revision := previous.revision, selector, subsets }
  else
    let revision : Nat ← (Program.step (.updateEntry e material) :)
    Program.count (.collection (if revision = previous.revision then .unchanged else .updated))
    return { material, revision, selector, subsets }

/-- Collects the metrics of a limiter, and takes note if that fails. -/
def refresh (s : Settings) (id : ResourceId) (e : EntryId) : Attempt CollectionError Collected :=
  Attempt.noting (fun r =>
    match r with
    | .ok _ => none
    | .error _ => some (.collection .failed)) (collect s id e)

end Collected

end MeshLimiter
