import Std.Data.ExtTreeMap
import Std.Data.ExtTreeSet
/-!
# Material

The metric values that the templates of a limiter are evaluated against. A key holds either a single
value or, if it is marked as a group, the values of a whole label set as one text that no expression
may use. The last write to a key decides both its value and its mark.
-/

namespace MeshLimiter

/-- Metric values by key, with the keys that are groups. -/
structure Material where
  values : Std.ExtTreeMap String String := ∅
  groups : Std.ExtTreeSet String := ∅
deriving DecidableEq

namespace Material

def empty : Material := {}

def get? (m : Material) (key : String) : Option String :=
  m.values[key]?

def isGroup (m : Material) (key : String) : Bool :=
  m.groups.contains key

def insert (m : Material) (key value : String) : Material :=
  { values := m.values.insert key value, groups := m.groups.erase key }

def insertGroup (m : Material) (key value : String) : Material :=
  { values := m.values.insert key value, groups := m.groups.insert key }

def put (m : Material) (group : Bool) (key value : String) : Material :=
  if group then m.insertGroup key value else m.insert key value

/-- The entries of one material written over those of another. -/
def extend (m other : Material) : Material :=
  other.values.foldl (fun acc key value => acc.put (other.isGroup key) key value) m

def isEmpty (m : Material) : Bool :=
  m.values.isEmpty

def size (m : Material) : Nat :=
  m.values.size

end Material

end MeshLimiter
