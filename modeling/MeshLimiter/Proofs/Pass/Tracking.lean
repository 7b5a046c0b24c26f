import MeshLimiter.Proofs.Pass.History
/-!
# No filter is lost sight of

A pass notes the subsets that may have a filter. What it notes goes back to what it has found in the
cluster, to what earlier passes have noted, and to what has failed on the way. No filter that a pass
ever asked for falls out of the notes as long as it exists, so the next pass that gets through
leaves exactly the filters that were compiled.

* **`Pass.Tracked`**: the filters that exist are noted, and `Pass.Tracked.step` that a pass keeps it
  so;
* **`Pass.no_filter_orphaned`**: no filter is left behind, for all histories of one limiter.
-/

namespace MeshLimiter.Pass

variable {R : Answering} {s : Settings} {id : ResourceId}

/-- A pass has asked for the filter at a place. In particular, if it has written one. -/
def Asked (ts : List Taken) (p : ResourceId) : Prop :=
  ∃ t ∈ ts, ∃ k ∈ t.trace.calls, k.filterPlace? = some p

instance (ts : List Taken) (p : ResourceId) : Decidable (Asked ts p) :=
  inferInstanceAs (Decidable (∃ t ∈ ts, ∃ k ∈ t.trace.calls, k.filterPlace? = some p))

/-- Asked by either of two histories. -/
theorem asked_append {ts ts' : List Taken} {p : ResourceId} :
    Asked (ts ++ ts') p ↔ Asked ts p ∨ Asked ts' p := by
  unfold Asked
  simp only [List.mem_append, or_and_right, exists_or]

/-- Where a pass was asked for a filter and one exists, a subset with that filter is noted. -/
def Tracked (id : ResourceId) (ts : List Taken) (h : Held) : Prop :=
  ∀ p, Asked ts p → h.filters[p]? ≠ none → ∃ n ∈ h.written.getD id ∅, p = filterPlace id n

/-- The places that a pass may ask for: those of the desired filters. -/
def Desired (s : Settings) (id : ResourceId) (l : Limiter) (c : Collected) (h : Held)
    (p : ResourceId) : Prop :=
  ∃ e ∈ desiredOf s id l c (h.written.getD id ∅), p = filterPlace id e.1

variable {l : Limiter} {c : Collected} {h h' : Held} {tr : Trace} {y : Except PassError Unit}
  {p : ResourceId}

/-- A subset that is noted is desired, if only to be without a filter. -/
theorem desired_of_written {n : String} (hn : n ∈ h.written.getD id ∅) :
    Desired s id l c h (filterPlace id n) := by
  have hdesired : ∃ v, (n, v) ∈ desiredOf s id l c (h.written.getD id ∅) :=
    exists_mem_desiredFilters_of_written hn
  obtain ⟨v, hv⟩ := hdesired
  exact ⟨(n, v), hv, rfl⟩

/-- The filters that are to exist are the compiled ones. -/
theorem mem_desiredOf_some {written : SubsetNames} {n : String} {spec : FilterSpec} :
    (n, some spec) ∈ desiredOf s id l c written ↔
      (compiledOf s id l c).filters[n]? = some (some spec) := by
  rw [desiredOf, mem_toList_desiredFilters]
  simp

/-- What a pass has noted, wherever it may have been stopped: each desired filter that exists. -/
theorem Effects.noted (he : Effects R s id l c h tr y h') (hR : R.Truthful)
    (hp : Desired s id l c h p)
    (hfound : h'.filters[p]? ≠ none) : ∃ n ∈ h'.written.getD id ∅, p = filterPlace id n := by
  obtain ⟨names, hwritten, hpresent, -, habsent⟩ := he.written
  have hnames : h'.written.getD id ∅ = names := by
    rw [hwritten]
    exact Std.ExtTreeMap.getD_insert_self
  rw [hnames]
  obtain ⟨⟨n, v⟩, hn, rfl⟩ := hp
  cases v with
  | some spec => exact ⟨n, hpresent n spec hn, rfl⟩
  | none =>
    rcases habsent hR n hn with hmem | hgone
    · exact ⟨n, hmem, rfl⟩
    · exact absurd hgone hfound

/-- A filter that existed, was noted, and is not desired would have to be one that is desired. -/
theorem Effects.eq_none_of_not_desired {ts : List Taken} (he : Effects R s id l c h tr y h')
    (ht : Tracked id ts h) (hasked : Asked ts p) (hp : ¬ Desired s id l c h p) :
    h'.filters[p]? = none := by
  have hframe : h'.filters[p]? = h.filters[p]? :=
    he.frame p fun e hmem heq => hp ⟨e, hmem, heq⟩
  rw [hframe]
  -- a filter that is there has been noted, and what is noted is desired
  refine Classical.byContradiction fun hfound => ?_
  obtain ⟨n, hn, rfl⟩ := ht p hasked hfound
  exact hp (desired_of_written hn)

/-- **Tracking is kept by every pass**, also by one that is stopped or finds no metrics. -/
theorem Tracked.step (hR : R.Sound) (hT : R.Truthful) {ts : List Taken} {t : Taken}
    (hkey : keyOf t.limiter = .ok id) (ht : t.Ran R s) (htracked : Tracked id ts t.before.held) :
    Tracked id (ts ++ [t]) t.after.held := by
  intro p hasked hfound
  have hsplit : Asked ts p ∨ ∃ k ∈ t.trace.calls, k.filterPlace? = some p := by
    refine (asked_append.1 hasked).imp_right ?_
    rintro ⟨t', ht', hk⟩
    rw [List.mem_singleton.1 ht'] at hk
    exact hk
  cases ht.course hR hkey with
  | idle held calls _ =>
    rcases hsplit with hasked | ⟨k, hk, -⟩
    · rw [held] at hfound ⊢
      exact htracked p hasked hfound
    · rw [calls] at hk
      cases hk
  | blind _ _ aside held =>
    rcases hsplit with hasked | ⟨k, hk, hplace⟩
    · rw [held] at hfound ⊢
      exact htracked p hasked hfound
    · rw [(aside k hk).1] at hplace
      cases hplace
  | seen service subsets pods replies collects effects =>
    -- a desired filter is noted anew by this pass, and no other one is there any more
    by_cases hp : Desired s id t.limiter
        (.ofEntry (t.before.held.store.seen s id subsets pods replies) service subsets)
        (t.before.held.seen id (t.before.held.store.seen s id subsets pods replies)) p
    · exact effects.noted hT hp hfound
    · rcases hsplit with hasked | ⟨k, hk, hplace⟩
      · -- asked for before, but now neither desired nor there
        exact absurd (effects.eq_none_of_not_desired htracked hasked hp) hfound
      · exact absurd (effects.calls k hk p hplace) hp

/-- From any start, along a history, no filter that was asked for is lost. -/
theorem History.tracked (hR : R.Sound) (hT : R.Truthful) {w₀ w : World} {ts : List Taken}
    (hist : History R s w₀ ts w) (hkeys : ∀ t ∈ ts, keyOf t.limiter = .ok id) :
    Tracked id ts w.held := by
  induction hist with
  | start =>
    rintro p ⟨t, ht, -⟩
    cases ht
  | @snoc ts t prior ran ih =>
    have hkey : keyOf t.limiter = .ok id := hkeys t (by simp)
    exact (ih fun t' ht' => hkeys t' (List.mem_append_left _ ht')).step hR hT hkey ran

/-- A pass that collects metrics, and whose calls about filters all come about, leaves exactly the
filters that were compiled. -/
theorem Tracked.exists_iff (hR : R.Sound) (hT : R.Truthful) {ts : List Taken} {t : Taken}
    (hkey : keyOf t.limiter = .ok id) (ht : t.Ran R s) (htracked : Tracked id ts t.before.held)
    (hc : t.Collects s id c) (hfilters : ∀ event ∈ t.trace, event.isFailedFilterCall = false) :
    (∀ n spec, (compiledOf s id t.limiter c).filters[n]? = some (some spec) →
      t.after.held.filters[filterPlace id n]?.map (·.spec) = some spec) ∧
    ∀ p, Asked (ts ++ [t]) p → t.after.held.filters[p]? ≠ none →
      ∃ n spec, (compiledOf s id t.limiter c).filters[n]? = some (some spec) ∧
        p = filterPlace id n := by
  cases ht.course hR hkey with
  | idle _ _ observed => exact absurd observed hc.observed_ne_nil
  | blind collects _ _ _ => exact absurd hc (collects c)
  | seen service subsets pods replies collects effects =>
    obtain rfl := hc.eq collects
    obtain ⟨hpresent, habsent⟩ := effects.filters (.inl hfilters)
    refine ⟨fun n spec hn => hpresent n spec (mem_desiredOf_some.2 hn), fun p hasked hfound => ?_⟩
    by_cases hp : Desired s id t.limiter
        (.ofEntry (t.before.held.store.seen s id subsets pods replies) service subsets)
        (t.before.held.seen id (t.before.held.store.seen s id subsets pods replies)) p
    · obtain ⟨⟨n, v⟩, hn, rfl⟩ := hp
      cases v with
      | some spec => exact ⟨n, spec, mem_desiredOf_some.1 hn, rfl⟩
      | none => exact absurd (habsent hT n hn) hfound
    · -- it would have been asked for by an earlier pass, and so be noted and desired
      rcases asked_append.1 hasked with hasked | ⟨t', ht', k, hk, hplace⟩
      · exact absurd (effects.eq_none_of_not_desired htracked hasked hp) hfound
      · rw [List.mem_singleton.1 ht'] at hk
        exact absurd (effects.calls k hk p hplace) hp

/-- **No filter is orphaned.** Where no deletion of a filter that is there is answered as if there
were none, and whatever else fails: after every pass over a limiter, each filter that a pass has
ever asked for and that exists is one of a noted subset. After a pass that has collected metrics,
and in which no call about a filter has failed, the filters that exist are exactly those that were
compiled. -/
theorem no_filter_orphaned {w₀ w : World} {ts : List Taken}
    (hist : History World.AnswersTruly s w₀ ts w) (hkeys : ∀ t ∈ ts, keyOf t.limiter = .ok id) :
    (∀ p, Asked ts p → w.held.filters[p]? ≠ none →
      ∃ n ∈ w.held.written.getD id ∅, p = filterPlace id n) ∧
    ∀ ts' t c, ts = ts' ++ [t] → t.Collects s id c →
      (∀ event ∈ t.trace, event.isFailedFilterCall = false) →
      (∀ n spec, (compiledOf s id t.limiter c).filters[n]? = some (some spec) →
        w.held.filters[filterPlace id n]?.map (·.spec) = some spec) ∧
      ∀ p, Asked ts p → w.held.filters[p]? ≠ none →
        ∃ n spec, (compiledOf s id t.limiter c).filters[n]? = some (some spec) ∧
          p = filterPlace id n := by
  refine ⟨hist.tracked sound_answersTruly truthful_answersTruly hkeys, ?_⟩
  rintro ts' t c rfl hc hfilters
  obtain ⟨prior, ran, rfl⟩ := hist.of_snoc
  have hkey : keyOf t.limiter = .ok id := hkeys t (by simp)
  have htracked : Tracked id ts' t.before.held :=
    prior.tracked sound_answersTruly truthful_answersTruly fun t' ht' =>
      hkeys t' (List.mem_append_left _ ht')
  exact htracked.exists_iff sound_answersTruly truthful_answersTruly hkey ran hc hfilters

/-- A limiter whose rule goes from one subset to the other. -/
def movedRule : List (Occasion × Limiter) :=
  [(.changed, reviewsLimiter 1 [("v1", "1")]), (.changed, reviewsLimiter 2 [("v2", "1")])]

/-- All its passes are over the same limiter. -/
theorem keyOf_movedRule : ∀ p ∈ movedRule, keyOf p.2 = .ok reviews := by
  unfold movedRule
  simp only [List.forall_mem_cons]
  exact ⟨rfl, rfl, List.forall_mem_nil _⟩

/-- The first deletion fails, and the filter stays noted; the next look at the metrics deletes
it. -/
theorem no_filter_orphaned_movedRule :
    let w := reviewsWorld [{ kind := "delete_filter", code := 500, left := some 1 }]
    let ts := takeAll noMetrics w movedRule
    let v := afterAll noMetrics w movedRule
    let t := Taken.alone noMetrics v .metrics (reviewsLimiter 2 [("v2", "1")])
    v.held.filters[filterPlace reviews "v1"]? ≠ none ∧
    (∃ n ∈ v.held.written.getD reviews ∅, filterPlace reviews "v1" = filterPlace reviews n) ∧
    ∃ c, t.Collects noMetrics reviews c ∧
      ∀ p, Asked (ts ++ [t]) p → t.after.held.filters[p]? ≠ none →
        ∃ n spec, (compiledOf noMetrics reviews t.limiter c).filters[n]? = some (some spec) ∧
          p = filterPlace reviews n := by
  intro w ts v t
  -- one deletion fails, and it says so
  have hw : w.DeniesNothing := by
    intro f hf
    rw [List.mem_singleton.1 hf]
    decide
  have hist : History World.AnswersTruly noMetrics w ts v :=
    history_alone_truly noMetrics hw movedRule
  have hist' : History World.AnswersTruly noMetrics w (ts ++ [t]) t.after := by
    obtain ⟨htaken, hafter⟩ :=
      takeAll_concat noMetrics w movedRule .metrics (reviewsLimiter 2 [("v2", "1")])
    have hall := history_alone_truly noMetrics hw
      (movedRule ++ [(.metrics, reviewsLimiter 2 [("v2", "1")])])
    rw [htaken, hafter] at hall
    exact hall
  obtain ⟨hfound, hasked, hsucceeds, hobserved, hnofailure⟩ :
      v.held.filters[filterPlace reviews "v1"]? ≠ none ∧ Asked ts (filterPlace reviews "v1") ∧
      t.result.isOk = true ∧ t.trace.observed.isEmpty = false ∧
      ∀ event ∈ t.trace, event.isFailedFilterCall = false := by decide +kernel
  -- both parts of the theorem apply: to the history, and with one more pass
  have hkeys : ∀ t' ∈ ts, keyOf t'.limiter = .ok reviews := keyOf_of_mem_takeAll keyOf_movedRule
  have hkeys' : ∀ t' ∈ ts ++ [t], keyOf t'.limiter = .ok reviews :=
    List.forall_mem_append.2 ⟨hkeys, List.forall_mem_singleton.2 rfl⟩
  obtain ⟨c, hc⟩ := hist'.of_snoc.2.1.exists_collects sound_answersTruly rfl
    hsucceeds hobserved
  exact ⟨hfound,
    (no_filter_orphaned hist hkeys).1 _ hasked hfound, c, hc,
    ((no_filter_orphaned hist' hkeys').2 ts t c rfl hc hnofailure).2⟩

/-- A deletion that is answered as if there were no filter, while there is one, leaves a filter that
no pass will look for again. -/
theorem exists_orphan_of_denied : ¬ ∀ (s : Settings) (id : ResourceId) (w₀ w : World)
    (ts : List Taken), History World.Answers s w₀ ts w → (∀ t ∈ ts, keyOf t.limiter = .ok id) →
      ∀ p, Asked ts p → w.held.filters[p]? ≠ none →
        ∃ n ∈ w.held.written.getD id ∅, p = filterPlace id n := by
  intro h
  let w := reviewsWorld [{ kind := "delete_filter", code := 404 }]
  obtain ⟨hasked, hfound, hnot⟩ : Asked (takeAll noMetrics w movedRule) (filterPlace reviews "v1") ∧
      (afterAll noMetrics w movedRule).held.filters[filterPlace reviews "v1"]? ≠ none ∧
      ¬ "v1" ∈ (afterAll noMetrics w movedRule).held.written.getD reviews ∅ := by decide +kernel
  obtain ⟨n, hn, hplace⟩ := h noMetrics reviews w _ _ (history_alone noMetrics w movedRule)
    (keyOf_of_mem_takeAll keyOf_movedRule) (filterPlace reviews "v1") hasked hfound
  obtain rfl := filterPlace_injective hplace
  exact hnot hn

end MeshLimiter.Pass
