import MeshLimiter.Resource.Basic
/-!
# Pods by subset

The names of the pods of each subset. Only pods that have a name and are not being deleted count;
all of them belong to the base subset.
-/

namespace MeshLimiter

/-- The names of pods by subset; a subset without pods is left out. -/
abbrev PodGroups := Std.ExtTreeMap String (List String)

namespace PodGroups

def addTo (groups : PodGroups) (subset pod : String) : PodGroups :=
  groups.insert subset (groups.getD subset [] ++ [pod])

/-- The name of a pod that counts. -/
def liveName? (p : Pod) : Option String :=
  if p.terminating then none else p.metadata.name

/-- Adds a pod to every subset that picks it, and to the base subset. -/
def add (subsets : List Subset) (groups : PodGroups) (p : Pod) : PodGroups :=
  match liveName? p with
  | none => groups
  | some name =>
    let labels : Labels := p.metadata.labels.getD ∅
    let picked := subsets.filter fun s => !s.isBase && labels.selectedBy s.labels
    (picked.foldl (fun g s => g.addTo s.name name) groups).addTo Subset.baseName name

/-- The pods of each subset, in the order of the list. -/
def ofPods (pods : List Pod) (subsets : List Subset) : PodGroups :=
  pods.foldl (add subsets) ∅

end PodGroups

end MeshLimiter
