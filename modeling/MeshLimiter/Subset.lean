import MeshLimiter.Labels
/-!
# Subsets

A subset is a named part of the pods of a service. The base subset, which has a reserved name,
stands for all of them.
-/

namespace MeshLimiter

/-- A named part of the pods of a service, picked by labels. -/
structure Subset where
  name : String
  labels : Labels := ∅
deriving DecidableEq

namespace Subset

/-- The name reserved for the base subset. -/
def baseName : String := "_base"

def base : Subset := { name := baseName }

/-- Whether a subset goes by the reserved name. -/
def isBase (s : Subset) : Bool :=
  s.name == baseName

/-- Appends a subset unless one of its name is there. -/
def addNew (known : List Subset) (s : Subset) : List Subset :=
  if known.any fun k => k.name == s.name then known else known ++ [s]

/-- The first subset of each name, in order. -/
def firstOfEach (subsets : List Subset) : List Subset :=
  subsets.foldl addNew []

/-- The base subset, and after it the first subset of each other name. -/
def withBase (subsets : List Subset) : List Subset :=
  subsets.foldl addNew [base]

end Subset

end MeshLimiter
