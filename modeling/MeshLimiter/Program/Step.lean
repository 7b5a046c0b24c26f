import MeshLimiter.Cluster.Call
import MeshLimiter.Pass.Memory
import MeshLimiter.Query.Backend
import MeshLimiter.Queue
import MeshLimiter.Work.Backoff
/-!
# Steps

The single steps that passes are made of. Each is done at once and as a whole; between two of them
other passes may act. What a step gives has a type of its own.

The steps are the calls to the cluster and to the metrics server, and the single accesses to what
passes share: the limiters of interest, the entries, what was applied and written, the queues, and
the counts.
-/

namespace MeshLimiter

/-- The two queues: for changed limiters, and for limiters whose metrics are to be looked at. -/
inductive QueueName where
  | spec
  | metric
deriving DecidableEq, Repr

/-- A single step. -/
inductive Step where
  -- the limiters of interest
  | isInterested (id : ResourceId)
  | addInterest (id : ResourceId)
  | dropInterest (id : ResourceId)
  | allInterested
  -- the materials
  | findEntry (id : ResourceId)
  | makeEntry (id : ResourceId)
  | removeEntry (id : ResourceId)
  | readEntry (entry : EntryId)
  | updateEntry (entry : EntryId) (material : Material)
  -- what earlier passes left
  | findApplied (id : ResourceId)
  | setApplied (id : ResourceId) (applied : Option Applied)
  | findWritten (id : ResourceId)
  | setWritten (id : ResourceId) (subsets : Option SubsetNames)
  | count (event : PassEvent)
  -- the cluster and the metrics backend
  | call (c : ClusterCall)
  | subsetsOf (host : String)
  | sendQueries (texts : List String)
  | receiveAnswers (texts : List String)
  -- the work on limiters
  | tryPop (queue : QueueName)
  | push (queue : QueueName) (id : ResourceId)
  | finish (queue : QueueName) (id : ResourceId)
  | findLimiter (id : ResourceId)
  | noteFailure (backoff : Backoff) (id : ResourceId)
  | noteSuccess (id : ResourceId)

namespace Step

/-- What a step gives. Sent queries give the time at which their answers are there, a noted failure
the delay before the next attempt. -/
def Reply : Step → Type
  | isInterested _ => Bool
  | allInterested => List ResourceId
  | findEntry _ => Option EntryId
  | makeEntry _ => EntryId
  | readEntry _ => Entry
  | updateEntry _ _ => Nat
  | findApplied _ => Option Applied
  | findWritten _ => SubsetNames
  | call c => c.Reply
  | subsetsOf _ => List Subset
  | sendQueries _ => Nat
  | receiveAnswers _ => List QueryReply
  | tryPop _ => Option ResourceId
  | push _ _ => Queue.PushOutcome
  | finish _ _ => Bool
  | findLimiter _ => Option Limiter
  | noteFailure _ _ => Delay
  | _ => Unit

/-- The queue that a key was put into by a step. -/
def enqueuedOn : (a : Step) → a.Reply → Option QueueName
  | push queue _, (outcome : Queue.PushOutcome) => if outcome = .enqueued then some queue else none
  | finish queue _, (requeued : Bool) => if requeued then some queue else none
  | _, _ => none

end Step

end MeshLimiter
