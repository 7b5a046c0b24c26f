import MeshLimiter.Cluster.Basic
/-!
# Faults

Calls that are made to fail. A fault refuses the calls of a kind, on a name if it gives one, for a
number of times if it gives one. Of several faults the first that applies and is not used up counts.
-/

namespace MeshLimiter

/-- Calls that fail. -/
structure Fault where
  kind : String
  name : Option String := none
  code : UInt16
  /-- How many more times; without end if not given. -/
  left : Option Nat := none
deriving DecidableEq, Repr

namespace Fault

/-- Whether a fault refuses a call. -/
def refuses (f : Fault) (c : ClusterCall) : Bool :=
  f.kind == c.kind && f.name.all (· == c.subject.name) && f.left != some 0

def used (f : Fault) : Fault :=
  { f with left := f.left.map (· - 1) }

/-- The code that a call is refused with, if any, and the faults after it. -/
def check (c : ClusterCall) : List Fault → Option UInt16 × List Fault
  | [] => (none, [])
  | f :: fs =>
    if f.refuses c then (some f.code, f.used :: fs)
    else
      let (code, fs) := check c fs
      (code, f :: fs)

end Fault

end MeshLimiter
