import MeshLimiter.Limiter.Descriptor
import MeshLimiter.Pass.Outcome
import MeshLimiter.Store
import Std.Data.ExtTreeSet
/-!
# What is remembered between passes

The materials, what the last complete pass over each limiter applied, the subsets that filters were
written for, and how often the work on each limiter has failed in a row.

`Memory.applied` is what `Pass.isApplied` compares with, and `Memory.written` what
`Pass.desiredFilters` adds to the subsets that are compiled.
-/

namespace MeshLimiter

/-- What a complete pass applied. -/
structure Applied where
  generation : Option Int64
  spec : LimiterSpec
  /-- The revision of the material it was applied with. -/
  revision : Nat
deriving DecidableEq

abbrev SubsetNames := Std.ExtTreeSet String

/-- What is remembered between passes. -/
structure Memory where
  store : MaterialStore := {}
  applied : Std.ExtTreeMap ResourceId Applied := ∅
  written : Std.ExtTreeMap ResourceId SubsetNames := ∅
  attempts : Std.ExtTreeMap ResourceId UInt32 := ∅
  counts : PassCounts := .zero

end MeshLimiter
