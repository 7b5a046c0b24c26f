import MeshLimiter.Proofs.Pass.Tracking
/-!
# Failures stay apart

A pass that has collected metrics tries the registry, the filter of each subset and the status,
whatever becomes of the others. It succeeds if all of them do, and only then is the limiter noted as
applied.

* **`Pass.failures_isolated`**: what becomes of each filter, of the pass, and of what is noted.
-/

namespace MeshLimiter.Pass

variable {R : Answering} {s : Settings} {id : ResourceId}

/-- **Failures stay apart.** After a pass that has collected metrics, each desired filter whose own
calls are answered is as desired, whatever becomes of the other filters, the registry and the
status. The pass succeeds if and only if the registry, every filter and the status do. If it
succeeds, the limiter is noted as applied with the metrics that were collected; if not, the note
stays as it was. -/
theorem failures_isolated (hR : R.Sound) {t : Taken} {c : Collected}
    (hkey : keyOf t.limiter = .ok id) (ht : t.Ran R s) (hc : t.Collects s id c) :
    let desired := desiredOf s id t.limiter c (t.before.held.written.getD id ∅)
    (∀ e ∈ desired, Answered R t.trace (.filter (filterPlace id e.1)) →
      t.after.held.filters[filterPlace id e.1]?.map (·.spec) = e.2) ∧
    (t.result = .ok () ↔ PartsSucceed s id t.limiter c desired t.trace) ∧
    ((t.result = .ok () ∧ t.after.held.applied
        = t.before.held.applied.insert id (appliedOf t.limiter c)) ∨
      (∃ e, t.result = .error e) ∧ t.after.held.applied = t.before.held.applied) := by
  cases ht.course hR hkey with
  | idle _ _ observed => exact absurd observed hc.observed_ne_nil
  | blind collects _ _ _ => exact absurd hc (collects c)
  | seen service subsets pods replies collects effects =>
    obtain rfl := hc.eq collects
    exact ⟨effects.apart, effects.succeeds, effects.applied⟩

/-- The filter of one subset cannot be created; that of the other is, but the limiter does not count
as applied. -/
theorem failures_isolated_oneRefused :
    let w :=
      reviewsWorld [{ kind := "create_filter", name := filterName reviews "v2", code := 500 }]
    let t := Taken.alone noMetrics w .changed (reviewsLimiter 1 [("v1", "1"), ("v2", "1")])
    ∃ c spec, t.Collects noMetrics reviews c ∧
      ("v1", some spec) ∈ desiredOf noMetrics reviews t.limiter c ∅ ∧
      t.after.held.filters[filterPlace reviews "v1"]?.map (·.spec) = some spec ∧
      ¬ t.trace.Succeeds (.filter (filterPlace reviews "v2")) ∧
      (∃ e, t.result = .error e) ∧ t.after.held.applied = t.before.held.applied := by
  intro w t
  let subsets : List Subset := [{ name := "v1" }, { name := "v2" }]
  let c : Collected := .ofEntry (w.held.store.seen noMetrics reviews subsets [] []) {} subsets
  have ht : t.Ran World.Answers noMetrics :=
    (history_alone noMetrics w [(.changed, t.limiter)]).ran t List.mem_cons_self
  -- the service, its subsets and its pods are seen, and no metric is asked for
  have hc : t.Collects noMetrics reviews c :=
    ⟨{}, subsets, [], [], fun _ => rfl, Trace.eq_of_agree (by decide +kernel), rfl⟩
  have hwritten : t.before.held.written.getD reviews ∅ = ∅ := by decide +kernel
  obtain ⟨spec, hspec⟩ : ∃ spec,
      (compiledOf noMetrics reviews t.limiter c).filters["v1"]? = some (some spec) := by
    have hsome : ((compiledOf noMetrics reviews t.limiter c).filters["v1"]?.join).isSome
        = true := by
      decide +kernel
    obtain ⟨spec, hspec⟩ := Option.isSome_iff_exists.1 hsome
    exact ⟨spec, Option.join_eq_some_iff.1 hspec⟩
  have hmem : ("v1", some spec) ∈ desiredOf noMetrics reviews t.limiter c ∅ :=
    mem_desiredOf_some.2 hspec
  obtain ⟨hfilters, hok, happlied⟩ := failures_isolated sound_answers rfl ht hc
  rw [hwritten] at hfilters
  -- the creation of the other filter is refused
  have hrefused : ¬ t.trace.Succeeds (.filter (filterPlace reviews "v2")) := by decide +kernel
  have hresult : t.result.isOk = false := by decide +kernel
  have hanswered : Answered World.Answers t.trace (.filter (filterPlace reviews "v1")) :=
    .inl (by decide +kernel)
  clear_value c t
  refine ⟨c, spec, hc, hmem, hfilters _ hmem hanswered, hrefused, happlied.resolve_left fun h => ?_⟩
  rw [h.1] at hresult
  cases hresult

end MeshLimiter.Pass
