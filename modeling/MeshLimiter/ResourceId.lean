import Std.Data.ExtTreeSet
/-!
# Names of resources

Every resource lives in a namespace under a name. A limiter has the name of the service it limits,
so one identifier serves for both.
-/

namespace MeshLimiter

/-- Where a resource lives and what it is called there. -/
structure ResourceId where
  ns : String
  name : String
deriving DecidableEq, Repr, Inhabited

namespace ResourceId

/-- Identifiers in order: by namespace, then by name. -/
instance : Ord ResourceId := ⟨compareLex (compareOn ResourceId.ns) (compareOn ResourceId.name)⟩

instance : Std.TransOrd ResourceId :=
  inferInstanceAs (Std.TransCmp (compareLex (compareOn ResourceId.ns) (compareOn ResourceId.name)))

instance : Std.LawfulEqOrd ResourceId where
  compare_self := by
    intro a
    change compareLex (compareOn ResourceId.ns) (compareOn ResourceId.name) a a = .eq
    rw [compareLex_eq_eq]
    exact ⟨Std.ReflCmp.compare_self, Std.ReflCmp.compare_self⟩
  eq_of_compare := by
    intro a b h
    change compareLex (compareOn ResourceId.ns) (compareOn ResourceId.name) a b = .eq at h
    rw [compareLex_eq_eq] at h
    cases a; cases b
    simp only [compareOn, Std.LawfulEqCmp.compare_eq_iff_eq] at h
    simp [h.1, h.2]

def path (id : ResourceId) : String :=
  id.ns ++ "/" ++ id.name

/-- The identity of a service inside generated values: its name, then its namespace. -/
def serviceIdentity (id : ResourceId) : String :=
  id.name ++ "." ++ id.ns

/-- The text that marks a value as generated for a service. -/
def marker (id : ResourceId) : String :=
  "Service[" ++ id.serviceIdentity ++ "]"

/-- The fully qualified host of a service in a cluster's domain. -/
def serviceHost (id : ResourceId) (domain : String) : String :=
  id.name ++ "." ++ id.ns ++ ".svc." ++ domain

end ResourceId

/-- The domain of a cluster unless another is configured. -/
def defaultClusterDomain : String := "cluster.local"

abbrev IdSet := Std.ExtTreeSet ResourceId

end MeshLimiter
