import MeshLimiter.Proofs.Compile.Rules
import MeshLimiter.Proofs.Registry.Replacement
/-!
# The shared limits of a limiter

All entries that a limiter brings to the registry have a value that was generated for its service.
So what is known of runs of well-formed merges holds of the merges that passes make.

* **`generatedFor_of_mem_shared`**: whose entries the shared limits are;
* **`wellFormed_compile`**: they make a well-formed merge.
-/

namespace MeshLimiter

/-- Every shared entry of a limiter was generated for it. -/
theorem generatedFor_of_mem_shared {id : ResourceId} {spec : LimiterSpec} {m : Material}
    {subsets : List Subset} {selector : Labels} {config : CompileConfig} :
    ∀ d ∈ (compile id spec m subsets selector config).shared, d.GeneratedFor id := by
  intro d hd
  rw [shared_compile] at hd
  obtain ⟨s, -, hentry⟩ := List.mem_flatMap.1 hd
  obtain ⟨r, hr, hrd⟩ := List.mem_filterMap.1 hentry
  obtain ⟨-, unit, -, rfl⟩ := Rule.sharedEntry?_eq_some_iff.1 hrd
  exact ⟨r.descriptor, value_of_mem_rulesIn hr⟩

/-- What a limiter brings is a well-formed merge, if its service has names that the cluster
allows. -/
theorem wellFormed_compile {id : ResourceId} (h : id.WellNamed) (spec : LimiterSpec) (m : Material)
    (subsets : List Subset) (selector : Labels) (config : CompileConfig) :
    Registry.Replacement.WellFormed
      { service := id, descriptors := (compile id spec m subsets selector config).shared } :=
  { service := h
    descriptors := generatedFor_of_mem_shared }

end MeshLimiter
