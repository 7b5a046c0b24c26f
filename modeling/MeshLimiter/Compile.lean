import MeshLimiter.Compile.Plan
import MeshLimiter.Subset
/-!
# Compiling a limiter

Each subset that is known, the base subset first, gets its own filter from the descriptors that are
in force for it, or none if there are none. The shared descriptors of all subsets are listed
together.
-/

namespace MeshLimiter

/-- What a limiter comes to. -/
structure Compiled where
  /-- The filter of each subset; none if the subset is to have no filter. -/
  filters : Std.ExtTreeMap String (Option FilterSpec) := ∅
  /-- The descriptors in force, for the subsets that have a filter. -/
  inForce : Std.ExtTreeMap String (List Descriptor) := ∅
  /-- The entries for the registry. -/
  shared : List GlobalDescriptor := []
deriving DecidableEq

/-- What one subset comes to. -/
structure CompiledSubset where
  filter : FilterSpec
  inForce : List Descriptor
  shared : List GlobalDescriptor
deriving DecidableEq

/-- The labels that pick the pods of a subset: those of the service, with the subset's own written
over them. -/
def workloadOf (selector : Labels) (s : Subset) : Labels :=
  selector.overlaid s.labels

/-- Compiles one subset; nothing if no descriptor is in force. -/
def compileSubset (id : ResourceId) (spec : LimiterSpec) (m : Material) (selector : Labels)
    (config : CompileConfig) (s : Subset) : Option CompiledSubset :=
  let resolved := resolve m (spec.sets.getD s.name [])
  if resolved.isEmpty then none
  else
    let rules := resolved.filterMap (Rule.ofResolved? id)
    some
      { filter :=
          { workload := some (workloadOf selector s)
            patches := (plan config rules).map PlannedPatch.toConfigPatch }
        inForce := resolved.map (·.descriptor)
        shared := globalEntries rules }

def Compiled.add (c : Compiled) (name : String) : Option CompiledSubset → Compiled
  | none => { c with filters := c.filters.insert name none }
  | some s =>
    { filters := c.filters.insert name (some s.filter)
      inForce := c.inForce.insert name s.inForce
      shared := c.shared ++ s.shared }

/-- Compiles a limiter for the subsets of its service. -/
def compile (id : ResourceId) (spec : LimiterSpec) (m : Material) (subsets : List Subset)
    (selector : Labels) (config : CompileConfig) : Compiled :=
  (Subset.withBase subsets).foldl
    (fun c s => c.add s.name (compileSubset id spec m selector config s)) {}

end MeshLimiter
