import MeshLimiter.Proofs.Pass.Course
import MeshLimiter.Proofs.Pass.Parts
/-!
# What a pass changes

The part of a pass after the metrics are collected, seen from outside: which filters it may touch,
what it remembers, and when it leaves filters and registry alone.

* **`Pass.Stands`**: filters and registry are as the pass would bring them about;
* **`Pass.Effects`**: what can be said of every run, and `Pass.effects_of_runs` that it can.
-/

namespace MeshLimiter.Pass

open Program (Runs)

/-- What a pass with a limiter and some metrics would bring about is there already. -/
structure Stands (s : Settings) (id : ResourceId) (l : Limiter) (c : Collected) (h : Held) :
    Prop where
  registered : Registry.Settled s id (compiledOf s id l c).shared h.configMaps[s.registry]?
  filters : ∀ e ∈ desiredOf s id l c (h.written.getD id ∅),
    h.filters[filterPlace id e.1]?.map (·.spec) = e.2

/-- All parts of a pass succeed: the registry can be read, and no call about it, about a desired
filter or about the status has failed. -/
structure PartsSucceed (s : Settings) (id : ResourceId) (l : Limiter) (c : Collected)
    (desired : List (String × Option FilterSpec)) (tr : Trace) : Prop where
  registry : tr.Succeeds .registry
  readable : Registry.Readable s tr
  filters : ∀ e ∈ desired, tr.Succeeds (.filter (filterPlace id e.1))
  status : StatusWritten s id l c tr

/-- All calls about something are answered. A deletion may also find nothing to delete, where the
cluster says so only if it is true. -/
def Answered (R : Answering) (tr : Trace) (k : ClusterCall.Concern) : Prop :=
  (∀ event ∈ tr.about k, event.isError = false) ∨ R.Truthful ∧ tr.Succeeds k

/-- What a pass does once its metrics are collected: from what is held at first and in the end, its
trace and its result. -/
structure Effects (R : Answering) (s : Settings) (id : ResourceId) (l : Limiter) (c : Collected)
    (h : Held) (tr : Trace) (y : Except PassError Unit) (h' : Held) : Prop where
  store : h'.store = h.store
  interest : h'.interest = h.interest
  /-- What was applied is noted if and only if the pass succeeds. -/
  applied : (y = .ok () ∧ h'.applied = h.applied.insert id (appliedOf l c)) ∨
    (∃ e, y = .error e) ∧ h'.applied = h.applied
  /-- It succeeds if and only if all of its parts do. -/
  succeeds : y = .ok () ↔ PartsSucceed s id l c (desiredOf s id l c (h.written.getD id ∅)) tr
  /-- A filter for which all goes well is as desired, whatever becomes of the rest. -/
  apart : ∀ e ∈ desiredOf s id l c (h.written.getD id ∅),
    Answered R tr (.filter (filterPlace id e.1)) →
    h'.filters[filterPlace id e.1]?.map (·.spec) = e.2
  /-- Only the desired filters are asked for. -/
  calls : ∀ k ∈ tr.calls, ∀ p, k.filterPlace? = some p →
    ∃ e ∈ desiredOf s id l c (h.written.getD id ∅), p = filterPlace id e.1
  /-- No other filter is changed. -/
  frame : ∀ p, (∀ e ∈ desiredOf s id l c (h.written.getD id ∅), p ≠ filterPlace id e.1) →
    h'.filters[p]? = h.filters[p]?
  /-- The subsets that may have a filter are noted. -/
  written : ∃ names, h'.written = h.written.insert id names ∧
    (∀ n spec, (n, some spec) ∈ desiredOf s id l c (h.written.getD id ∅) → n ∈ names) ∧
    (∀ n ∈ names, ∃ spec, (n, spec) ∈ desiredOf s id l c (h.written.getD id ∅)) ∧
    (R.Truthful → ∀ n, (n, none) ∈ desiredOf s id l c (h.written.getD id ∅) →
      n ∈ names ∨ h'.filters[filterPlace id n]? = none)
  /-- If no call about a filter fails, all filters are as desired. -/
  filters : (∀ event ∈ tr, event.isFailedFilterCall = false) ∨ y = .ok () →
    (∀ n spec, (n, some spec) ∈ desiredOf s id l c (h.written.getD id ∅) →
      h'.filters[filterPlace id n]?.map (·.spec) = some spec) ∧
    (R.Truthful → ∀ n, (n, none) ∈ desiredOf s id l c (h.written.getD id ∅) →
      h'.filters[filterPlace id n]? = none)
  /-- A pass that succeeds has found the registry right, or has written it. -/
  registry : y = .ok () →
    (Registry.Settled s id (compiledOf s id l c).shared h.configMaps[s.registry]? ∧
      h'.configMaps = h.configMaps) ∨
    ∃ k version, Registry.mergeWrite? s id (compiledOf s id l c).shared h.configMaps[s.registry]?
      = some k ∧ k ∈ tr.calls ∧ h'.configMaps = (h.after version k).configMaps
  /-- A registry that is right is left alone. -/
  quiet : Registry.Settled s id (compiledOf s id l c).shared h.configMaps[s.registry]? →
    (∀ k ∈ tr.calls, k.writesTexts = false) ∧ h'.configMaps = h.configMaps
  /-- Where all is right, no filter and no registry is written. -/
  settled : Stands s id l c h → ∀ k ∈ tr.calls, k.writesMesh = false
  /-- A pass that succeeds and writes none of them has found all right. -/
  unwritten : y = .ok () → (∀ k ∈ tr.calls, k.writesMesh = false) → Stands s id l c h

variable {R : Answering} {s : Settings} {id : ResourceId} {l : Limiter} {c : Collected}
  {w w' : World} {tr tr' : Trace} {y : Except PassError Unit}

/-- Only what is about the parts of a pass matters to them. -/
theorem PartsSucceed.of_about {desired : List (String × Option FilterSpec)}
    (hp : PartsSucceed s id l c desired tr) (h : ∀ k, k ≠ .service → tr.about k = tr'.about k) :
    PartsSucceed s id l c desired tr' where
  registry := (Trace.succeeds_congr (h .registry nofun)).1 hp.registry
  readable := (Registry.readable_congr (h .registry nofun)).1 hp.readable
  filters e he := (Trace.succeeds_congr (h (.filter (filterPlace id e.1)) nofun)).1
    (hp.filters e he)
  status hs := (Trace.succeeds_congr (h .status nofun)).1 (hp.status hs)

/-- Whether calls about something are answered is told by what is about it. -/
theorem answered_congr {k : ClusterCall.Concern} (h : tr'.about k = tr.about k) :
    Answered R tr' k ↔ Answered R tr k := by
  rw [Answered, Answered, Trace.succeeds_congr h, h]

/-- The write of a merge touches nothing but named texts. -/
theorem held_of_mergeWrite? {found : Option ConfigMap} {descriptors : List GlobalDescriptor}
    {k : ClusterCall} (h : Registry.mergeWrite? s id descriptors found = some k) (held : Held)
    (version : String) :
    held.after version k = { held with configMaps := (held.after version k).configMaps } := by
  cases found with
  | none =>
    obtain rfl := Option.some.inj h
    rfl
  | some m =>
    obtain ⟨r, -, rfl⟩ := Option.map_eq_some_iff.1 h
    rfl

/-- Nothing is observed any more once the metrics are collected. -/
theorem observed_of_runs (hR : R.Sound) (h : Runs R (bringAbout s id l c).run w tr y w') :
    tr.observed = [] := by
  obtain ⟨registered, w₁, w₂, w₃, a, tr₁, tr₂, rest, hmerge, -, hall, rfl, hobserved, -⟩ :=
    runs_bringAbout hR h
  have hb := allBroughtTo_of_runs hR (nodup_toList_desiredFilters ..) hall
  rw [Trace.observed_append, (Registry.mergedTo_of_runs hR hmerge).observed,
    Trace.observed_cons_of_not rfl, Trace.observed_append, hb.observed, hobserved]
  rfl

/-- A merge touches nothing but named texts. -/
theorem held_of_mergedTo {descriptors : List GlobalDescriptor} {b : Except PassError Bool}
    (h : Registry.MergedTo s id descriptors w tr b w') :
    w'.held = { w.held with configMaps := w'.held.configMaps } := by
  rcases h.held with h | ⟨k, version, hk, h⟩
  · rw [h]
  · rw [h]
    exact held_of_mergeWrite? hk w.held version

/-- The parts of a pass show in its trace as if each were alone. -/
theorem parts_of_runs (hR : R.Sound) (h : Runs R (bringAbout s id l c).run w tr y w') :
    (y = .ok () ↔ PartsSucceed s id l c (desiredOf s id l c (w.held.written.getD id ∅)) tr) ∧
    ∀ e ∈ desiredOf s id l c (w.held.written.getD id ∅),
      Answered R tr (.filter (filterPlace id e.1)) →
      w'.held.filters[filterPlace id e.1]?.map (·.spec) = e.2 := by
  obtain ⟨registered, w₁, w₂, w₃, w₄, a, tr₁, tr₂, tr₃, hmerge, hw₂, hall, hw₄, hclose, rfl⟩ :=
    runs_bringAbout_cut hR h
  have hwritten : w₁.held.written = w.held.written := by
    rw [held_of_mergedTo (Registry.mergedTo_of_runs hR hmerge)]
  rw [hwritten] at hall ⊢
  have heach := eachApplied_of_runs hR (nodup_toList_desiredFilters ..) hall
  obtain ⟨hevents, hy⟩ := runs_close hR hclose
  have hclosing : ∀ k, k ≠ .status → tr₃.about k = [] := by
    refine fun k hk => Trace.about_eq_nil.2 fun event hevent => ?_
    rcases hevents event hevent with ⟨r, rfl⟩ | rfl
    · exact decide_eq_false hk.symm
    · rfl
  -- what is about the registry, a filter or the status stands in one part of the trace only
  have habout : ∀ k, Trace.about k (tr₁ ++ ⟨.findWritten id, w.held.written.getD id ∅⟩ ::
      (tr₂ ++ ⟨.setWritten id (some a.written), ()⟩ :: tr₃))
        = tr₁.about k ++ (tr₂.about k ++ tr₃.about k) := by
    intro k
    rw [Trace.about_append, Trace.about_cons_of_not rfl, Trace.about_append,
      Trace.about_cons_of_not rfl]
  generalize tr₁ ++ ⟨.findWritten id, w.held.written.getD id ∅⟩ ::
    (tr₂ ++ ⟨.setWritten id (some a.written), ()⟩ :: tr₃) = tr at habout ⊢
  have hregistry := habout .registry
  rw [heach.about .registry fun e _ => nofun, hclosing .registry nofun, List.append_nil,
    List.append_nil] at hregistry
  have hstatus := habout .status
  rw [heach.about .status fun e _ => nofun,
    Registry.about_of_runs_merge hmerge (k := .status) nofun,
    List.nil_append, List.nil_append] at hstatus
  have hfilter : ∀ p, tr.about (.filter p) = tr₂.about (.filter p) := by
    intro p
    rw [habout, Registry.about_of_runs_merge hmerge (k := .filter p) nofun,
      hclosing (.filter p) nofun, List.nil_append, List.append_nil]
  constructor
  · have hparts : PartsSucceed s id l c (desiredOf s id l c (w.held.written.getD id ∅)) tr ↔
        (∃ b, registered = .ok b) ∧ a.failure = none ∧ StatusWritten s id l c tr₃ := by
      have hmerged := Registry.ok_iff_succeeds hmerge
      rw [← Trace.succeeds_congr hregistry, ← Registry.readable_congr hregistry] at hmerged
      have hfilters := heach.ok.trans (and_iff_right rfl)
      constructor
      · intro hp
        exact ⟨hmerged.2 ⟨hp.registry, hp.readable⟩,
          hfilters.2 fun e he => (Trace.succeeds_congr (hfilter _)).1 (hp.filters e he),
          fun hs => (Trace.succeeds_congr hstatus).1 (hp.status hs)⟩
      · rintro ⟨hok, ha, hs⟩
        exact
          { registry := (hmerged.1 hok).1
            readable := (hmerged.1 hok).2
            filters := fun e he => (Trace.succeeds_congr (hfilter _)).2 (hfilters.1 ha e he)
            status := fun hneeded => (Trace.succeeds_congr hstatus).2 (hs hneeded) }
    rw [hparts]
    rcases hy with ⟨rfl, hregistered, hfailure, hs, -⟩ | ⟨⟨e, rfl⟩, hfailed, -⟩
    · exact iff_of_true rfl ⟨hregistered, hfailure, hs⟩
    · refine iff_of_false (by simp) ?_
      rintro ⟨⟨b, rfl⟩, hfailure, hs⟩
      rcases hfailed with ⟨e', he⟩ | ha | hns
      · cases he
      · exact ha hfailure
      · exact hns hs
  · intro e he hanswered
    obtain ⟨v, v', trₑ, z, hone, hshown, hheld⟩ := heach.each e he
    have hfilters : w'.held.filters = w₃.held.filters := by
      rcases hy with ⟨-, -, -, -, hw'⟩ | ⟨-, -, hw'⟩ <;> rw [hw', hw₄]
    rw [hfilters, hheld]
    exact ProxyFilter.map_spec_of_runs_apply hR hone
      ((answered_congr ((hfilter _).trans hshown)).1 hanswered)

/-! ## From the parts to the effects

A pass is cut where one of its parts ends and the next one begins. What the merge and the filters
come to is known of each by itself; the effects of the pass follow one by one from that. -/

/-- What comes up between the parts of a pass: the worlds, what the parts come to, and their
traces. -/
structure Cut where
  /-- The world after the merge. -/
  merged : World
  registered : Except PassError Bool
  merging : Trace
  /-- The world that the filters are applied in. -/
  met : World
  /-- The world after the filters are applied. -/
  applied : World
  applying : Applying
  filtering : Trace
  closing : Trace

/-- A run of a pass is cut like this. -/
structure Cut.Cuts (k : Cut) (R : Answering) (s : Settings) (id : ResourceId) (l : Limiter)
    (c : Collected) (w : World) (tr : Trace) (y : Except PassError Unit) (w' : World) : Prop where
  trace : tr = k.merging ++ ⟨.findWritten id, w.held.written.getD id ∅⟩ ::
    (k.filtering ++ k.closing)
  merges : Registry.MergedTo s id (compiledOf s id l c).shared w k.merging k.registered k.merged
  meets : k.met.held.filters = w.held.filters
  brings : AllBroughtTo R id (desiredOf s id l c (w.held.written.getD id ∅))
    {} k.met k.filtering k.applying k.applied
  aside : Aside k.closing
  /-- The merge touches the registry, and then the filters are all that changes. -/
  holds : k.applied.held
    = { w.held with filters := k.applied.held.filters, configMaps := k.merged.held.configMaps }
  ends : (y = .ok () ∧ (∃ b, k.registered = .ok b) ∧ k.applying.failure = none ∧
      w'.held = { k.applied.held with
        written := k.applied.held.written.insert id k.applying.written
        applied := k.applied.held.applied.insert id (appliedOf l c) }) ∨
    (∃ e, y = .error e) ∧
      w'.held = { k.applied.held with
        written := k.applied.held.written.insert id k.applying.written }

/-- Every run of a pass can be cut. -/
theorem exists_cuts_of_runs (hR : R.Sound) (h : Runs R (bringAbout s id l c).run w tr y w') :
    ∃ k : Cut, k.Cuts R s id l c w tr y w' := by
  obtain ⟨registered, w₁, w₂, w₃, a, tr₁, tr₂, rest, hmerge, hw₂, hall, rfl, -, haside, hy⟩ :=
    runs_bringAbout hR h
  have hmerged := Registry.mergedTo_of_runs hR hmerge
  -- the subsets that were written are looked up after the merge, which leaves them alone
  have hw₁ : w₁.held = { w.held with configMaps := w₁.held.configMaps } := held_of_mergedTo hmerged
  have hwritten : w₁.held.written = w.held.written := by rw [hw₁]
  rw [hwritten] at hall ⊢
  have hbrought := allBroughtTo_of_runs hR (nodup_toList_desiredFilters ..) hall
  exact ⟨⟨w₁, registered, tr₁, w₂, w₃, a, tr₂, rest⟩,
    { trace := rfl
      merges := hmerged
      meets := by rw [hw₂, hw₁]
      brings := hbrought
      aside := haside
      holds := by rw [hbrought.held, hw₂, hw₁]
      ends := hy }⟩

namespace Cut.Cuts

variable {k : Cut}

/-- What is held in the end, but for what was applied. -/
theorem held_eq (h : k.Cuts R s id l c w tr y w') : w'.held = { w.held with
    filters := k.applied.held.filters
    configMaps := k.merged.held.configMaps
    written := w.held.written.insert id k.applying.written
    applied := w'.held.applied } := by
  rcases h.ends with ⟨-, -, -, hend⟩ | ⟨-, hend⟩ <;> rw [hend, h.holds]

/-- The calls are those of the merge, of the filters, and of the end. -/
theorem forall_calls (h : k.Cuts R s id l c w tr y w') {P : ClusterCall → Prop} :
    (∀ call ∈ tr.calls, P call) ↔ (∀ call ∈ k.merging.calls, P call) ∧
      (∀ call ∈ k.filtering.calls, P call) ∧ ∀ call ∈ k.closing.calls, P call := by
  rw [h.trace, Trace.calls_append, List.forall_mem_append]
  show (_ ∧ ∀ call ∈ Trace.calls (k.filtering ++ k.closing), P call) ↔ _
  rw [Trace.calls_append, List.forall_mem_append]

/-- A pass succeeds only if its merge has come to an end and no filter has failed. -/
theorem of_ok (h : k.Cuts R s id l c w tr (.ok ()) w') :
    (∃ b, k.registered = .ok b) ∧ k.applying.failure = none := by
  rcases h.ends with ⟨-, hregistered, hfailure, -⟩ | ⟨⟨e, he⟩, -⟩
  · exact ⟨hregistered, hfailure⟩
  · cases he

/-- What was applied is noted just if the pass succeeds. -/
theorem applied_cases (h : k.Cuts R s id l c w tr y w') :
    (y = .ok () ∧ w'.held.applied = w.held.applied.insert id (appliedOf l c)) ∨
      (∃ e, y = .error e) ∧ w'.held.applied = w.held.applied := by
  rcases h.ends with ⟨hy, -, -, hend⟩ | ⟨hy, hend⟩
  · exact .inl ⟨hy, by rw [hend, h.holds]⟩
  · exact .inr ⟨hy, by rw [hend, h.holds]⟩

/-- Only the filters ask for filters. -/
theorem calls (h : k.Cuts R s id l c w tr y w') :
    ∀ call ∈ tr.calls, ∀ p, call.filterPlace? = some p →
    ∃ e ∈ desiredOf s id l c (w.held.written.getD id ∅), p = filterPlace id e.1 := by
  refine h.forall_calls.2 ⟨fun call hcall p hp => ?_, fun call hcall p hp => ?_,
    fun call hcall p hp => ?_⟩
  · rw [h.merges.calls call hcall] at hp
    cases hp
  · obtain ⟨e, he, hplace⟩ := h.brings.calls call hcall
    rw [hp] at hplace
    exact ⟨e, he, Option.some.inj hplace⟩
  · rw [(h.aside call hcall).1] at hp
    cases hp

/-- The filters that are not desired are as they were. -/
theorem frame (h : k.Cuts R s id l c w tr y w') {p : ResourceId}
    (hp : ∀ e ∈ desiredOf s id l c (w.held.written.getD id ∅), p ≠ filterPlace id e.1) :
    w'.held.filters[p]? = w.held.filters[p]? := by
  rw [h.held_eq]
  show k.applied.held.filters[p]? = w.held.filters[p]?
  rw [h.brings.frame p hp, h.meets]

/-- What is noted in the end is what the filters have noted; nothing was noted before them. -/
theorem written (h : k.Cuts R s id l c w tr y w') :
    ∃ names, w'.held.written = w.held.written.insert id names ∧
      (∀ n spec, (n, some spec) ∈ desiredOf s id l c (w.held.written.getD id ∅) → n ∈ names) ∧
      (∀ n ∈ names, ∃ spec, (n, spec) ∈ desiredOf s id l c (w.held.written.getD id ∅)) ∧
      (R.Truthful → ∀ n, (n, none) ∈ desiredOf s id l c (w.held.written.getD id ∅) →
        n ∈ names ∨ w'.held.filters[filterPlace id n]? = none) := by
  refine ⟨k.applying.written, by rw [h.held_eq],
    fun n spec hn => h.brings.written_of_mem n (.inr ⟨spec, hn⟩), fun n hn => ?_, fun hT n hn => ?_⟩
  · rcases h.brings.mem_of_written n hn with hn | hn
    · simp at hn
    · exact hn
  · rw [h.held_eq]
    exact h.brings.tracked hT n hn

/-- No filter has failed if no call about one has, or if the pass succeeds. -/
theorem failure_eq_none (h : k.Cuts R s id l c w tr y w')
    (hy : (∀ event ∈ tr, event.isFailedFilterCall = false) ∨ y = .ok ()) :
    k.applying.failure = none := by
  rcases hy with hnone | rfl
  · refine Classical.byContradiction fun ha => ?_
    rcases h.brings.failed ha with hfailure | ⟨event, hevent, hfailed⟩
    · exact hfailure rfl
    · have hmem : event ∈ tr := by
        rw [h.trace]
        exact List.mem_append_right _ (List.mem_cons_of_mem _ (List.mem_append_left _ hevent))
      rw [hnone event hmem] at hfailed
      cases hfailed
  · exact h.of_ok.2

/-- If none has failed, all filters are as desired, and those to be gone are gone if the cluster is
truthful. -/
theorem filters (h : k.Cuts R s id l c w tr y w')
    (hy : (∀ event ∈ tr, event.isFailedFilterCall = false) ∨ y = .ok ()) :
    (∀ n spec, (n, some spec) ∈ desiredOf s id l c (w.held.written.getD id ∅) →
      w'.held.filters[filterPlace id n]?.map (·.spec) = some spec) ∧
    (R.Truthful → ∀ n, (n, none) ∈ desiredOf s id l c (w.held.written.getD id ∅) →
      w'.held.filters[filterPlace id n]? = none) := by
  have hfailure := h.failure_eq_none hy
  rw [h.held_eq]
  exact ⟨h.brings.present hfailure, fun hT => h.brings.absent hT hfailure⟩

/-- A merge that has come to an end has found the registry right, or has written it. -/
theorem registry (h : k.Cuts R s id l c w tr (.ok ()) w') :
    (Registry.Settled s id (compiledOf s id l c).shared w.held.configMaps[s.registry]? ∧
      w'.held.configMaps = w.held.configMaps) ∨
    ∃ call version,
      Registry.mergeWrite? s id (compiledOf s id l c).shared w.held.configMaps[s.registry]?
        = some call ∧
      call ∈ tr.calls ∧ w'.held.configMaps = (w.held.after version call).configMaps := by
  obtain ⟨⟨b, hb⟩, -⟩ := h.of_ok
  rw [h.held_eq]
  -- the merge tells by its result whether it wrote
  cases b with
  | false =>
    have hsettled := h.merges.unchanged hb
    exact .inl ⟨hsettled, by rw [(h.merges.settled hsettled).1]⟩
  | true =>
    obtain ⟨call, version, hwrite, hcall, hheld⟩ := h.merges.written hb
    refine .inr ⟨call, version, hwrite, ?_, by rw [hheld]⟩
    rw [h.trace, Trace.calls_append]
    exact List.mem_append_left _ hcall

/-- A registry that is right is read, and not written. -/
theorem quiet (h : k.Cuts R s id l c w tr y w')
    (hsettled : Registry.Settled s id (compiledOf s id l c).shared w.held.configMaps[s.registry]?) :
    (∀ call ∈ tr.calls, call.writesTexts = false) ∧ w'.held.configMaps = w.held.configMaps := by
  obtain ⟨hheld, hquiet, -⟩ := h.merges.settled hsettled
  refine ⟨h.forall_calls.2 ⟨fun call hcall => ?_, fun call hcall => ?_, fun call hcall => ?_⟩, ?_⟩
  · exact ClusterCall.writesTexts_of_writesMesh (hquiet call hcall)
  · obtain ⟨e, -, hplace⟩ := h.brings.calls call hcall
    exact ClusterCall.writesTexts_of_filterPlace? hplace
  · exact ClusterCall.writesTexts_of_writesMesh (h.aside call hcall).2
  · rw [h.held_eq]
    show k.merged.held.configMaps = w.held.configMaps
    rw [hheld]

/-- Where all is right, neither the merge nor the filters write anything. -/
theorem settled (h : k.Cuts R s id l c w tr y w') (hstands : Stands s id l c w.held) :
    ∀ call ∈ tr.calls, call.writesMesh = false :=
  h.forall_calls.2 ⟨(h.merges.settled hstands.registered).2.1,
    h.brings.settled (by rw [h.meets]; exact hstands.filters), fun call hcall =>
    (h.aside call hcall).2⟩

/-- If nothing is written and nothing fails, all was right before. -/
theorem unwritten (h : k.Cuts R s id l c w tr (.ok ()) w')
    (hnone : ∀ call ∈ tr.calls, call.writesMesh = false) : Stands s id l c w.held := by
  obtain ⟨hmerging, hfiltering, -⟩ := h.forall_calls.1 hnone
  obtain ⟨⟨b, hb⟩, hfailure⟩ := h.of_ok
  have hstand := h.brings.unwritten hfailure hfiltering
  rw [h.meets] at hstand
  exact ⟨h.merges.unwritten b hb hmerging, hstand⟩

end Cut.Cuts

/-- All runs have these effects. -/
theorem effects_of_runs (hR : R.Sound) (h : Runs R (bringAbout s id l c).run w tr y w') :
    Effects R s id l c w.held tr y w'.held := by
  obtain ⟨hsucceeds, hapart⟩ := parts_of_runs hR h
  obtain ⟨k, hk⟩ := exists_cuts_of_runs hR h
  exact
    { store := by rw [hk.held_eq]
      interest := by rw [hk.held_eq]
      applied := hk.applied_cases
      succeeds := hsucceeds
      apart := hapart
      calls := hk.calls
      frame := fun _ hp => hk.frame hp
      written := hk.written
      filters := hk.filters
      registry := by
        rintro rfl
        exact hk.registry
      quiet := hk.quiet
      settled := hk.settled
      unwritten := by
        rintro rfl hnone
        exact hk.unwritten hnone }

/-- A trace with further events has the same effects if those neither ask for a filter nor write,
and are about nothing but the service. -/
theorem Effects.widen {h h' : Held} (he : Effects R s id l c h tr y h')
    (hevents : ∀ event ∈ tr, event ∈ tr') (habout : ∀ k, k ≠ .service → tr'.about k = tr.about k)
    (hcalls : ∀ k ∈ tr'.calls, k ∈ tr.calls ∨ k.filterPlace? = none ∧ k.writesMesh = false) :
    Effects R s id l c h tr' y h' := by
  -- all that was called is still called
  have hmem : ∀ k ∈ tr.calls, k ∈ tr'.calls := by
    intro k hk
    obtain ⟨event, hevent, hcall⟩ := List.mem_filterMap.1 hk
    exact List.mem_filterMap.2 ⟨event, hevents event hevent, hcall⟩
  exact
    { he with
      succeeds := he.succeeds.trans ⟨fun hp => hp.of_about fun k hk => (habout k hk).symm,
        fun hp => hp.of_about habout⟩
      apart := fun e hmem hanswered =>
        he.apart e hmem ((answered_congr (habout (.filter (filterPlace id e.1)) nofun)).1 hanswered)
      calls := fun k hk p hp => by
        rcases hcalls k hk with hk | ⟨hnone, -⟩
        · exact he.calls k hk p hp
        · rw [hnone] at hp
          cases hp
      filters := fun hy => he.filters (hy.imp_left fun hnone event hevent =>
        hnone event (hevents event hevent))
      registry := fun hy => by
        rcases he.registry hy with hs | ⟨k, version, hk, hcall, hheld⟩
        · exact .inl hs
        · exact .inr ⟨k, version, hk, hmem k hcall, hheld⟩
      quiet := fun hs => by
        obtain ⟨hnone, hheld⟩ := he.quiet hs
        refine ⟨fun k hk => ?_, hheld⟩
        rcases hcalls k hk with hk | ⟨-, hmesh⟩
        · exact hnone k hk
        · exact ClusterCall.writesTexts_of_writesMesh hmesh
      settled := fun hs k hk => by
        rcases hcalls k hk with hk | ⟨-, hnone⟩
        · exact he.settled hs k hk
        · exact hnone
      unwritten := fun hy hnone => he.unwritten hy fun k hk => hnone k (hmem k hk) }

end MeshLimiter.Pass
