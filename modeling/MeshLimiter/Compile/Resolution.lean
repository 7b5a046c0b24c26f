import MeshLimiter.Limiter.Descriptor
import MeshLimiter.Template
/-!
# Resolving descriptors

Of the descriptors of a subset, those are in force whose condition holds, that have an action, and
whose quota evaluates. One that fails is left out and does not touch the others.
-/

namespace MeshLimiter

/-- A descriptor in force, its quota a number. -/
structure Resolved where
  descriptor : Descriptor
  quota : UInt64
deriving DecidableEq, Repr

def Descriptor.resolve? (m : Material) (d : Descriptor) : Option Resolved :=
  match Template.condition d.condition m, d.action with
  | .ok true, some action =>
    match Template.quota action.quota m with
    | .ok quota => some { descriptor := d.withQuota quota, quota }
    | .error _ => none
  | _, _ => none

def resolve (m : Material) (ds : List Descriptor) : List Resolved :=
  ds.filterMap (Descriptor.resolve? m)

end MeshLimiter
