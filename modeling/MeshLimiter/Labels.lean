import Std.Data.ExtTreeMap
/-!
# Labels

Labels of a resource, and selection by labels: a selector picks what carries all of its pairs.
-/

namespace MeshLimiter

abbrev Labels := Std.ExtTreeMap String String

namespace Labels

/-- Whether every pair of the selector is among the labels. An empty selector picks everything. -/
def selectedBy (labels selector : Labels) : Bool :=
  selector.toList.all fun (k, v) => labels[k]? == some v

/-- The labels with those of `other` written over them. -/
def overlaid (labels other : Labels) : Labels :=
  other.foldl (fun acc k v => acc.insert k v) labels

end Labels

end MeshLimiter
