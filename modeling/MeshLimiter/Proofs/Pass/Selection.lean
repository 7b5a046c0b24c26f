import MeshLimiter.Proofs.Pass.History
import MeshLimiter.Proofs.Query.Pods
/-!
# Which pods a filter is for

The pods that are counted for a subset are those that the service picks and that carry the labels of
the subset. The filter of the subset is for the pods that carry the labels of the subset written
over those that the service picks by. So it is for no fewer pods, but it may be for more: a service
that picks by no label has no pods, yet nothing restricts its filters, and a subset may write over
what its service picks by.

* **`Cluster.podsFound`**, **`Labels.Belongs`**: the pods of a service, and the labels that they
  have;
* **`Cluster.mem_counted_iff`**: which pods are counted;
* **`Pass.selectsCounted_iff`**: a filter is for the pods that were counted exactly if it is for no
  pod outside the service;
* **`Pass.forall_selectsCounted_iff`**: the labels for which that is so in every cluster.
-/

namespace MeshLimiter

/-- Whether a filter is for the pods with some labels. One that names no labels is for all pods. -/
def FilterSpec.selects (f : FilterSpec) (labels : Labels) : Bool :=
  labels.selectedBy (f.workload.getD ∅)

/-- A service with this selector has the pods with these labels; if it picks by no label, it has
none. -/
def Labels.Belongs (selector labels : Labels) : Prop :=
  selector.isEmpty = false ∧ labels.selectedBy selector = true

namespace Cluster

variable {k : Cluster} {ns n : String} {selector labels : Labels} {subsets : List Subset}
  {sub : Subset}

/-- The namespace has a pod that counts, with this name and these labels. -/
def HasPod (k : Cluster) (ns n : String) (labels : Labels) : Prop :=
  ∃ p ∈ k.pods, p.metadata.ns = some ns ∧ PodGroups.liveName? p = some n ∧ p.labels = labels

/-- The pods of a namespace that count are told apart by their names. -/
def NamesPods (k : Cluster) (ns : String) : Prop :=
  ∀ n labels labels', k.HasPod ns n labels → k.HasPod ns n labels' → labels = labels'

/-- The pods that are found for a service. -/
def podsFound (k : Cluster) (ns : String) (selector : Labels) : List Pod :=
  if selector.isEmpty then [] else k.podsOf ns selector

/-- The pods with some labels are all that carry them. -/
theorem mem_podsOf {p : Pod} : p ∈ k.podsOf ns selector ↔
    p ∈ k.pods ∧ p.metadata.ns = some ns ∧ p.labels.selectedBy selector = true := by
  rw [podsOf, List.mem_filter, Bool.and_eq_true, beq_iff_eq]
  rfl

/-- The pods of a service are those that it has. -/
theorem mem_podsFound {p : Pod} : p ∈ k.podsFound ns selector ↔
    p ∈ k.pods ∧ p.metadata.ns = some ns ∧ selector.Belongs p.labels := by
  unfold podsFound Labels.Belongs
  split
  · next h => simp [h]
  · next h => simp [mem_podsOf, Bool.eq_false_iff.2 h]

/-- **A pod is counted for a subset** if it belongs to the service and carries the labels of the
subset. -/
theorem mem_counted_iff (hnames : (subsets.map (·.name)).Nodup)
    (hsub : sub ∈ Subset.withBase subsets) (hk : k.NamesPods ns) (hpod : k.HasPod ns n labels) :
    n ∈ (PodGroups.ofPods (k.podsFound ns selector) subsets).getD sub.name [] ↔
      selector.Belongs labels ∧ labels.selectedBy sub.labels = true := by
  rw [PodGroups.mem_ofPods hnames hsub]
  constructor
  · rintro ⟨p, hp, hn, hpick⟩
    obtain ⟨hmem, hns, hbelongs⟩ := mem_podsFound.1 hp
    -- the pod that was counted is the one of that name
    obtain rfl := hk n _ _ ⟨p, hmem, hns, hn, rfl⟩ hpod
    exact ⟨hbelongs, hpick⟩
  · rintro ⟨hbelongs, hpick⟩
    obtain ⟨p, hmem, hns, hn, rfl⟩ := hpod
    exact ⟨p, mem_podsFound.2 ⟨hmem, hns, hbelongs⟩, hn, hpick⟩

end Cluster

namespace Pass

variable {k : Cluster} {ns : String} {subsets : List Subset} {sub : Subset} {f : FilterSpec}
  {selector : Labels}

/-- In a namespace, a filter is for those pods that were counted for a subset, and for no others. -/
def SelectsCounted (k : Cluster) (ns : String) (pods : List Pod) (subsets : List Subset)
    (sub : Subset) (f : FilterSpec) : Prop :=
  ∀ n labels, k.HasPod ns n labels →
    (f.selects labels = true ↔ n ∈ (PodGroups.ofPods pods subsets).getD sub.name [])

/-- In a namespace, a filter is for no pod outside a service. -/
def SelectsWithin (k : Cluster) (ns : String) (selector : Labels) (f : FilterSpec) : Prop :=
  ∀ n labels, k.HasPod ns n labels → f.selects labels = true → selector.Belongs labels

/-- **A filter is for the pods that were counted** exactly if it is for no pod outside the
service. -/
theorem selectsCounted_iff (hnames : (subsets.map (·.name)).Nodup)
    (hsub : sub ∈ Subset.withBase subsets) (hf : f.workload = some (workloadOf selector sub))
    (hk : k.NamesPods ns) : SelectsCounted k ns (k.podsFound ns selector) subsets sub f ↔
      SelectsWithin k ns selector f := by
  have hselects : ∀ labels : Labels, f.selects labels
      = labels.selectedBy (selector.overlaid sub.labels) := by
    intro labels
    rw [FilterSpec.selects, hf]
    rfl
  constructor
  · -- whoever is counted belongs to the service
    intro h n labels hpod hselected
    exact ((Cluster.mem_counted_iff hnames hsub hk hpod).1 ((h n labels hpod).1 hselected)).1
  · -- a pod that it is for belongs to the service, and then labels decide alone
    intro h n labels hpod
    rw [Cluster.mem_counted_iff hnames hsub hk hpod]
    constructor
    · intro hselected
      have hbelongs := h n labels hpod hselected
      rw [hselects] at hselected
      exact ⟨hbelongs, Labels.selectedBy_of_overlaid hselected⟩
    · rintro ⟨hbelongs, hpick⟩
      rw [hselects]
      exact Labels.selectedBy_overlaid hbelongs.2 hpick

/-- A cluster with one pod. -/
def onePod (ns : String) (labels : Labels) : Cluster :=
  { pods := [{ metadata := { name := some "pod", ns := some ns, labels := some labels } }] }

/-- It has that pod, and no other. -/
theorem hasPod_onePod {labels labels' : Labels} {n : String} :
    (onePod ns labels).HasPod ns n labels' ↔ n = "pod" ∧ labels' = labels := by
  constructor
  · rintro ⟨p, hp, -, hn, rfl⟩
    obtain rfl := List.mem_singleton.1 hp
    exact ⟨(Option.some.inj hn).symm, rfl⟩
  · rintro ⟨rfl, rfl⟩
    exact ⟨_, List.mem_cons_self, rfl, rfl, rfl⟩

/-- **Whatever pods there are, a filter is for those that were counted**, exactly if the service
picks by some label and the subset does not write over it. -/
theorem forall_selectsCounted_iff (hnames : (subsets.map (·.name)).Nodup)
    (hsub : sub ∈ Subset.withBase subsets) (hf : f.workload = some (workloadOf selector sub)) :
    (∀ k : Cluster, k.NamesPods ns → SelectsCounted k ns (k.podsFound ns selector) subsets sub f) ↔
      selector.isEmpty = false ∧ selector.Agrees sub.labels := by
  constructor
  · intro h
    -- a pod that has just the labels that the filter names is one of the service
    have hnamed : (onePod ns (workloadOf selector sub)).NamesPods ns := by
      intro n labels labels' hpod hpod'
      rw [(hasPod_onePod.1 hpod).2, (hasPod_onePod.1 hpod').2]
    have hbelongs := (selectsCounted_iff hnames hsub hf hnamed).1 (h _ hnamed) "pod" _
      (hasPod_onePod.2 ⟨rfl, rfl⟩)
      (by rw [FilterSpec.selects, hf]; exact Labels.selectedBy_self _)
    exact ⟨hbelongs.1, Labels.agrees_of_selectedBy hbelongs.2⟩
  · rintro ⟨hselector, hagrees⟩ k hk
    rw [selectsCounted_iff hnames hsub hf hk]
    intro n labels _ hselected
    rw [FilterSpec.selects, hf] at hselected
    exact ⟨hselector, (hagrees.selectedBy_overlaid_iff.1 hselected).1⟩

/-- What the filter of a subset names is what the subset and its service pick by. -/
theorem workload_of_filters {s : Settings} {id : ResourceId} {l : Limiter} {c : Collected}
    (hsub : sub ∈ Subset.withBase c.subsets)
    (hf : (compiledOf s id l c).filters[sub.name]? = some (some f)) :
    f.workload = some (workloadOf c.selector sub) := by
  obtain ⟨sub', hsub', hname, -, rfl⟩ := getElem?_filters_some_iff.1 hf
  -- there is one subset of that name
  rw [Subset.eq_of_name_eq (Subset.nodup_names_withBase c.subsets) hsub hsub' hname]

/-- **Which pods the filters of a pass are for.** In a pass that collects, the filter of a subset is
for the pods of the namespace that were counted for that subset exactly if it is for no pod outside
the service; and that is so whatever pods there are exactly if the service picks by some label and
the subset does not write over it. -/
theorem filters_select_iff {R : Answering} (hR : R.Sound) {s : Settings}
    {id : ResourceId} {t : Taken}
    {c : Collected} (ran : t.Ran R s) (hc : t.Collects s id c)
    (hnames : (c.subsets.map (·.name)).Nodup) :
    ∃ service pods replies, c.selector = service.podSelector ∧
      t.trace.observed = (Observation.complete service c.subsets pods replies).events s id ∧
      (∃ k : Cluster, pods = k.podsFound id.ns c.selector) ∧
      ∀ sub ∈ Subset.withBase c.subsets, ∀ f,
        (compiledOf s id t.limiter c).filters[sub.name]? = some (some f) →
        (∀ k : Cluster, k.NamesPods id.ns → pods = k.podsFound id.ns c.selector →
          (SelectsCounted k id.ns pods c.subsets sub f ↔ SelectsWithin k id.ns c.selector f)) ∧
        ((∀ k : Cluster, k.NamesPods id.ns →
            SelectsCounted k id.ns (k.podsFound id.ns c.selector) c.subsets sub f) ↔
          c.selector.isEmpty = false ∧ c.selector.Agrees sub.labels) := by
  obtain ⟨service, subsets, pods, replies, hfits, hobserved, rfl⟩ := hc
  refine ⟨service, pods, replies, rfl, hobserved, ?_, fun sub hsub f hf => ?_⟩
  · show ∃ k : Cluster, pods = k.podsFound id.ns service.podSelector
    unfold Cluster.podsFound
    by_cases hempty : service.podSelector.isEmpty = true
    · exact ⟨{}, by rw [if_pos hempty]; exact hfits hempty⟩
    · -- the pods were asked for, so some cluster listed them
      have hlisted : (⟨.call (.pods id.ns service.podSelector), .ok pods⟩ : Event) ∈ t.trace := by
        refine (List.mem_filter.1 (?_ : _ ∈ t.trace.observed)).1
        rw [hobserved, Observation.events, Observation.podEvents, if_neg hempty]
        simp
      obtain ⟨v, v', hanswer⟩ := ran.exists_answer hlisted
      obtain ⟨u, -, hpods⟩ := (hR hanswer).reply_of_ok
      exact ⟨u.cluster, by rw [if_neg hempty]; exact (Except.ok.inj hpods).symm⟩
  · have hworkload := workload_of_filters hsub hf
    refine ⟨fun k hk hpods => ?_, forall_selectsCounted_iff hnames hsub hworkload⟩
    have hiff := selectsCounted_iff hnames hsub hworkload hk
    rw [← hpods] at hiff
    exact hiff

/-! ## Pods of other services

The filter is for the pods of a service that picks by labels. If the service picks by none, the
filter is for pods of the service beside it as well. -/

/-- A pod of the namespace of the samples, with an application and a version. -/
def samplePod (name app version : String) : Pod :=
  { metadata :=
      { name := some name
        ns := some reviews.ns
        labels := some ((∅ : Labels).insert "app" app |>.insert "version" version) } }

/-- A pod of the service of the samples, and one of another service. -/
def samplePods : List Pod :=
  [samplePod "reviews-1" "reviews" "v1", samplePod "ratings-1" "ratings" "v1"]

/-- A service that picks its pods by some labels, with one subset, beside a pod of another
service. -/
def besideRatings (selector : Option Labels) : World :=
  { reviewsWorld [] with
    cluster :=
      { services := (∅ : Std.ExtTreeMap ResourceId Service).insert reviews
          { selector := some selector }
        pods := samplePods }
    declared := some ((∅ : Std.ExtTreeMap String (List Subset)).insert
      (reviews.serviceHost defaultClusterDomain)
      [{ name := "v1", labels := (∅ : Labels).insert "version" "v1" }]) }

theorem namesPods_besideRatings (selector : Option Labels) :
    (besideRatings selector).cluster.NamesPods reviews.ns := by
  have hpods : ∀ p ∈ samplePods, ∀ q ∈ samplePods,
      PodGroups.liveName? p = PodGroups.liveName? q → p.labels = q.labels := by decide
  rintro n labels labels' ⟨p, hp, -, hn, rfl⟩ ⟨q, hq, -, hn', rfl⟩
  exact hpods p hp q hq (hn.trans hn'.symm)

/-- The filter of a subset with a label of its own is for the pod that was counted for it. -/
theorem filters_select_iff_versioned :
    let w := besideRatings (some ((∅ : Labels).insert "app" "reviews"))
    let t := Taken.alone noMetrics w .changed (reviewsLimiter 1 [("v1", "1")])
    let sub : Subset := { name := "v1", labels := (∅ : Labels).insert "version" "v1" }
    ∃ c f, t.Collects noMetrics reviews c ∧
      (compiledOf noMetrics reviews t.limiter c).filters["v1"]? = some (some f) ∧
      SelectsCounted w.cluster reviews.ns
        (w.cluster.podsFound reviews.ns c.selector) c.subsets sub f ∧
      SelectsWithin w.cluster reviews.ns c.selector f := by
  intro w t sub
  let service : Service := { selector := some (some ((∅ : Labels).insert "app" "reviews")) }
  let pods : List Pod := [samplePod "reviews-1" "reviews" "v1"]
  let c : Collected := .ofEntry (w.held.store.seen noMetrics reviews [sub] pods []) service [sub]
  -- the pass, what it has collected, and the filter that it compiles
  have ht : t.Ran World.Answers noMetrics :=
    (history_alone noMetrics w [(.changed, t.limiter)]).ran t List.mem_cons_self
  have hc : t.Collects noMetrics reviews c :=
    ⟨service, [sub], pods, [], fun h => absurd h (by decide), Trace.eq_of_agree (by decide +kernel),
      rfl⟩
  have hsub : sub ∈ Subset.withBase c.subsets := by decide
  obtain ⟨f, hf⟩ : ∃ f, (compiledOf noMetrics reviews t.limiter c).filters["v1"]?
    = some (some f) := by
    have hsome : ((compiledOf noMetrics reviews t.limiter c).filters["v1"]?.join).isSome
        = true := by
      decide +kernel
    obtain ⟨f, hf⟩ := Option.isSome_iff_exists.1 hsome
    exact ⟨f, Option.join_eq_some_iff.1 hf⟩
  have hnames : (c.subsets.map (·.name)).Nodup := by decide
  have hnamed : w.cluster.NamesPods reviews.ns := namesPods_besideRatings _
  obtain ⟨_, _, _, -, -, -, hfilters⟩ := filters_select_iff sound_answers ht hc hnames
  -- the service picks by a label, and the subset agrees with it
  have hselector : c.selector.isEmpty = false := by decide
  have hagrees : c.selector.Agrees sub.labels := Labels.agrees_of_selectedBy (by decide)
  have hcounted := (hfilters sub hsub f hf).2.2 ⟨hselector, hagrees⟩ w.cluster hnamed
  have hwithin := (selectsCounted_iff hnames hsub (workload_of_filters hsub hf) hnamed).1 hcounted
  exact ⟨c, f, hc, hf, hcounted, hwithin⟩

/-- The filters of a service that picks by no label are for the pods of every service, though no pod
was counted. -/
theorem exists_filter_beyond_service :
    ¬ ∀ (s : Settings) (id : ResourceId) (t : Taken) (c : Collected),
    t.Ran World.Answers s → t.Collects s id c → (c.subsets.map (·.name)).Nodup →
    t.before.cluster.NamesPods id.ns → ∀ sub ∈ Subset.withBase c.subsets, ∀ f,
    (compiledOf s id t.limiter c).filters[sub.name]? = some (some f) →
    SelectsCounted t.before.cluster id.ns
    (t.before.cluster.podsFound id.ns c.selector) c.subsets sub f := by
  intro h
  let w := besideRatings none
  let t := Taken.alone noMetrics w .changed (reviewsLimiter 1 [("_base", "1")])
  let subsets : List Subset := [{ name := "v1", labels := (∅ : Labels).insert "version" "v1" }]
  let c : Collected := .ofEntry (w.held.store.seen noMetrics reviews subsets [] [])
    { selector := some none } subsets
  have ht : t.Ran World.Answers noMetrics :=
    (history_alone noMetrics w [(.changed, t.limiter)]).ran t List.mem_cons_self
  have hc : t.Collects noMetrics reviews c :=
    ⟨{ selector := some none }, subsets, [], [], fun _ => rfl,
    Trace.eq_of_agree (by decide +kernel), rfl⟩
  have hsub : Subset.base ∈ Subset.withBase c.subsets := by decide
  obtain ⟨f, hf⟩ : ∃ f, (compiledOf noMetrics reviews t.limiter c).filters["_base"]?
    = some (some f) := by
    have hsome : ((compiledOf noMetrics reviews t.limiter c).filters["_base"]?.join).isSome
        = true := by
      decide +kernel
    obtain ⟨f, hf⟩ := Option.isSome_iff_exists.1 hsome
    exact ⟨f, Option.join_eq_some_iff.1 hf⟩
  have hcounted := h noMetrics reviews t c ht hc (by decide) (namesPods_besideRatings _) _ hsub f hf
  -- the pod of the other service
  have hpod : t.before.cluster.HasPod reviews.ns "ratings-1"
      (samplePod "ratings-1" "ratings" "v1").labels :=
    ⟨_, List.mem_cons_of_mem _ List.mem_cons_self, rfl, rfl, rfl⟩
  have hselected : f.selects (samplePod "ratings-1" "ratings" "v1").labels = true := by
    rw [FilterSpec.selects, workload_of_filters hsub hf]
    decide
  have hbelongs := ((Cluster.mem_counted_iff (by decide) hsub (namesPods_besideRatings _) hpod).1
    ((hcounted _ _ hpod).1 hselected)).1
  exact absurd hbelongs.1 (by decide)

end Pass

end MeshLimiter
