import MeshLimiter.Filter.Name
import MeshLimiter.Pass.Settings
import MeshLimiter.Program.Basic
/-!
# Applying filters

The filter of a subset is brought to what it should be: created, replaced, deleted, or left alone if
it is that already.
-/

namespace MeshLimiter

namespace ProxyFilter

/-- The label of the filters that the controller writes, and its value. -/
def managedBy : String × String := ("app.kubernetes.io/managed-by", "limiter-controller")

/-- The filter of a subset of a limiter, owned by the limiter. -/
def desired (id : ResourceId) (l : Limiter) (subset : String) (spec : FilterSpec) : ProxyFilter :=
  { metadata :=
      { name := some (filterName id subset)
        ns := some id.ns
        ownerReferences := l.ownerReference?.map fun r => [r] }
    spec }

/-- A filter with the label of the controller among some labels. -/
def marked (f : ProxyFilter) (labels : Labels) : ProxyFilter :=
  { f with metadata := { f.metadata with labels := some (labels.insert managedBy.1 managedBy.2) } }

/-- A filter that takes the place of another: it keeps the labels and, if it has none of its own,
the owners of the other, and names the version that it replaces. -/
def inPlaceOf (f old : ProxyFilter) : ProxyFilter :=
  let g := f.marked (old.metadata.labels.getD ∅)
  { g with metadata :=
    { g.metadata with
      resourceVersion := old.metadata.resourceVersion
      ownerReferences := f.metadata.ownerReferences <|> old.metadata.ownerReferences } }

/-- Deletes the filter of a subset. One that is gone by then is as good as deleted. -/
def remove (id : ResourceId) (subset : String) : Attempt PassError Unit := do
  let place : ResourceId := { ns := id.ns, name := filterName id subset }
  let r : Except PassError Unit ← (Attempt.call PassError.cluster (.deleteFilter place)).run
  match r with
  | .ok _ => pure ()
  | .error e => if e = .cluster .notFound then pure () else throw e
  Program.count (.filterWrite .delete)

/-- Brings the filter of a subset to a specification, or to be absent. -/
def apply (id : ResourceId) (l : Limiter) (subset : String) (spec : Option FilterSpec) :
    Attempt PassError Unit := do
  let place : ResourceId := { ns := id.ns, name := filterName id subset }
  let current : Option ProxyFilter ← Attempt.call .cluster (.filter place)
  match spec, current with
  | none, none => return ()
  | none, some _ => remove id subset
  | some spec, none =>
    let _ : Unit ← Attempt.call .cluster (.createFilter ((desired id l subset spec).marked ∅))
    Program.count (.filterWrite .create)
  | some spec, some old =>
    if old.spec = spec then return ()
    else
      let _ : Unit ← Attempt.call .cluster
        (.replaceFilter ((desired id l subset spec).inPlaceOf old))
      Program.count (.filterWrite .update)

end ProxyFilter

end MeshLimiter
