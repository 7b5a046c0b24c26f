import MeshLimiter.Decimal.Duration
/-!
# Failed calls

Why a call to the cluster fails. Only a refusal tells more than that it did.
-/

namespace MeshLimiter

/-- Why a call to the cluster failed. -/
inductive ClusterError where
  /-- The cluster refused it, with a code. -/
  | refused (code : UInt16)
  /-- There was no answer within a number of milliseconds. -/
  | timedOut (limit : Nat)
  /-- The answer could not be read. -/
  | unreadable
deriving DecidableEq, Repr

namespace ClusterError

/-- The wording of an error, where it has one of its own. -/
def message? : ClusterError → Option String
  | timedOut limit => some ("request timed out after " ++ Decimal.millisecondsText limit)
  | _ => none

/-- The code for an object that does not exist. -/
def notFound : ClusterError := .refused 404

/-- The code for an object that exists or has changed. -/
def conflict : ClusterError := .refused 409

def isNotFound (e : ClusterError) : Bool := e = notFound

/-- Whether the object existed already or had changed. -/
def isConflict (e : ClusterError) : Bool := e = conflict

end ClusterError

end MeshLimiter
