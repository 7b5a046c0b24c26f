import Mathlib.Data.List.Flatten
import Mathlib.Data.List.Forall2
import Mathlib.Data.List.Nodup
import MeshLimiter.Proofs.Text.Bytes
import MeshLimiter.Proofs.Text.Search
import MeshLimiter.Query.Basic
/-!
# The queries that are asked

The answer to a query is stored under its name, beside the numbers of pods. A query for each subset
is named by the subset and the metric, with a dot between them, any other by the metric alone; so
names that have dots of their own could meet. They do not if no subset has a dot in its name, and no
metric begins like the entries of a subset.

* **`Query.SelectsPods`**, **`Query.selectsPods_of_infix`**: the handlers that are asked for each
  subset;
* **`Query.InOrder`**, **`Query.inOrder_subsetOrder`**: the subsets with pods, in the order of the
  bytes of their names;
* **`Query.Asks`**, **`Query.asks_ofHandler`**: what one handler asks;
* **`Query.Apart.metric_eq`**: the name of a query tells the metric;
* **`Query.queries_apart`**: what all handlers ask.
-/

namespace MeshLimiter

namespace Query

variable {id : ResourceId} {pods : PodGroups} {handlers : Handlers} {max : Nat}
  {metric metric' s s' n : String}
  {h : QueryHandler} {q : Query} {ps : List String} {subsets : List (String × List String)}

/-! ## Holes

A query is asked with the namespace and the pods filled in. -/

/-- The query of a handler with the namespace filled in. -/
def placed (id : ResourceId) (h : QueryHandler) : String :=
  Text.replaceAll namespaceHole id.ns h.query

/-- A query for a single value that names the pods, be it that the namespace completes the name of
the hole. -/
def SelectsPods (id : ResourceId) (h : QueryHandler) : Prop :=
  h.kind = .value ∧ podHole.toList <:+: (placed id h).toList

/-- The query of a handler for some pods. -/
def forPods (id : ResourceId) (h : QueryHandler) (name : String) (ps : List String) : Query :=
  { name, query := Text.replaceAll podHole (alternatives ps) (placed id h), kind := h.kind }

/-- A handler for a single value that names the pods does so in every namespace. -/
theorem selectsPods_of_infix (hkind : h.kind = .value)
    (hstands : podHole.toList <:+: h.query.toList) :
    SelectsPods id h := by
  refine ⟨hkind, ?_⟩
  rw [placed, Text.replaceAll, String.toList_ofList]
  exact Text.infix_replaceFrom (by decide) (by decide) (by decide) (by simp) hstands

/-! ## The subsets that are asked for

The base subset comes first if it has pods, and there are at most as many as a limit says. -/

/-- The subsets with pods in the order in which they are asked for: the base subset first, and the
others in the order of the bytes of their names. -/
structure InOrder (pods : PodGroups) (subsets : List (String × List String)) : Prop where
  mem_iff : ∀ s ps, (s, ps) ∈ subsets ↔ pods[s]? = some ps ∧ ps ≠ []
  ordered : subsets.Pairwise fun a b => b.1 ≠ Subset.baseName ∧
    (a.1 = Subset.baseName ∨ Text.bytes a.1 < Text.bytes b.1)

theorem InOrder.nodup_names (h : InOrder pods subsets) : (subsets.map Prod.fst).Nodup := by
  rw [List.Nodup, List.pairwise_map]
  refine h.ordered.imp fun {a b} hab heq => ?_
  rcases hab.2 with hbase | hlt
  · exact hab.1 (heq ▸ hbase)
  · exact List.lt_irrefl _ (heq ▸ hlt)

/-- As many subsets are in order as have pods. -/
theorem InOrder.length_eq (h : InOrder pods subsets) :
    subsets.length = (pods.filter fun _ ps => !ps.isEmpty).size := by
  have hperm : subsets.Perm (pods.filter fun _ ps => !ps.isEmpty).toList := by
    refine (List.perm_ext_iff_of_nodup h.nodup_names.of_map ?_).2 fun ⟨s, ps⟩ => ?_
    · refine Std.ExtTreeMap.distinct_keys_toList.imp fun {a b} hne heq => hne ?_
      rw [heq]
      exact Std.ReflCmp.compare_self
    · rw [h.mem_iff, Std.ExtTreeMap.toList_filter, List.mem_filter,
        Std.ExtTreeMap.mem_toList_iff_getElem?_eq_some]
      simp
  rw [hperm.length_eq, Std.ExtTreeMap.length_toList]

theorem mem_subsetOrder : (s, ps) ∈ subsetOrder pods ↔ pods[s]? = some ps ∧ ps ≠ [] := by
  rw [subsetOrder, List.mem_filter, List.mem_append, Option.mem_toList, Option.map_eq_some_iff,
    List.mem_filter, Std.ExtTreeMap.mem_toList_iff_getElem?_eq_some]
  refine and_congr ⟨?_, fun hs => ?_⟩ (by simp)
  · rintro (⟨ps, hps, heq⟩ | ⟨hs, -⟩)
    · cases heq
      exact hps
    · exact hs
  · by_cases hbase : s = Subset.baseName
    · exact .inl ⟨ps, hbase ▸ hs, by rw [hbase]⟩
    · exact .inr ⟨hs, bne_iff_ne.2 hbase⟩

theorem inOrder_subsetOrder (pods : PodGroups) : InOrder pods (subsetOrder pods) := by
  have hother : ∀ a ∈ pods.toList.filter fun a => a.1 != Subset.baseName, a.1 ≠ Subset.baseName :=
    fun a ha => bne_iff_ne.1 (List.mem_filter.1 ha).2
  refine ⟨fun s ps => mem_subsetOrder, List.Pairwise.filter _ (List.pairwise_append.2 ⟨?_, ?_, ?_⟩)⟩
  · cases pods[Subset.baseName]? with
    | none => exact .nil
    | some ps => exact List.pairwise_singleton ..
  · refine (Std.ExtTreeMap.ordered_keys_toList.filter _).imp_of_mem fun {a b} _ hb hlt => ?_
    exact ⟨hother b hb, .inr (Text.bytes_lt_bytes_iff.2 (compareOfLessAndEq_eq_lt.1 hlt))⟩
  · intro a ha b hb
    obtain ⟨ps, -, rfl⟩ := Option.map_eq_some_iff.1 (Option.mem_toList.1 ha)
    exact ⟨hother b hb, .inl rfl⟩

/-! ## What one handler asks

Once for all subsets, or once for each of them. -/

/-- What a handler asks about subsets that are in order. -/
structure Asks (id : ResourceId) (pods : PodGroups)
    (subsets : List (String × List String)) (max : Nat)
    (metric : String) (h : QueryHandler) (queries : List Query) : Prop where
  blank : h.query = "" → queries = []
  selects : h.kind = .value → podHole.toList <:+: h.query.toList → SelectsPods id h
  /-- A handler that selects pods asks about each subset, up to the bound, in their order. -/
  perSubset : h.query ≠ "" → SelectsPods id h →
    queries.length = min max (pods.filter fun _ ps => !ps.isEmpty).size ∧
      queries = (subsets.take max).map fun s => forPods id h (s.1 ++ "." ++ metric) s.2
  /-- Any other asks once, about all pods. -/
  once : h.query ≠ "" → ¬ SelectsPods id h →
    queries = [forPods id h metric (pods.getD Subset.baseName [])]

theorem ofHandler_of_selectsPods (hquery : h.query ≠ "") (hselects : SelectsPods id h) :
    ofHandler id pods max metric h
      = ((subsetOrder pods).take max).map fun s => forPods id h (s.1 ++ "." ++ metric) s.2 := by
  obtain ⟨hkind, hstands⟩ := hselects
  have hcond : (h.kind = .value && Text.occurs podHole.toList (placed id h).toList) = true := by
    rw [Text.occurs_iff.2 hstands, hkind]
    rfl
  rw [ofHandler, if_neg (by simpa using hquery)]
  refine (if_pos hcond).trans (List.map_congr_left fun s _ => ?_)
  rw [forPods, hkind]
  rfl

theorem ofHandler_of_not_selectsPods (hquery : h.query ≠ "") (hselects : ¬ SelectsPods id h) :
    ofHandler id pods max metric h = [forPods id h metric (pods.getD Subset.baseName [])] := by
  have hcond : ¬ (h.kind = .value && Text.occurs podHole.toList (placed id h).toList) = true := by
    rw [Bool.and_eq_true, decide_eq_true_iff, Text.occurs_iff]
    exact hselects
  rw [ofHandler, if_neg (by simpa using hquery)]
  exact if_neg hcond

theorem asks_ofHandler (id : ResourceId) (pods : PodGroups) (max : Nat) (metric : String)
    (h : QueryHandler) :
    Asks id pods (subsetOrder pods) max metric h (ofHandler id pods max metric h) where
  blank hblank := by
    rw [ofHandler, if_pos (by simp [hblank])]
  selects := selectsPods_of_infix
  perSubset hquery hselects := by
    rw [ofHandler_of_selectsPods hquery hselects, List.length_map, List.length_take,
      (inOrder_subsetOrder pods).length_eq]
    exact ⟨rfl, rfl⟩
  once := ofHandler_of_not_selectsPods

/-- Which of the three a handler does is the same for every bound. -/
theorem ofHandler_cases (id : ResourceId) (pods : PodGroups) (metric : String) (h : QueryHandler) :
    (∀ max, ofHandler id pods max metric h = []) ∨
      (∀ max, ofHandler id pods max metric h
        = ((subsetOrder pods).take max).map fun s => forPods id h (s.1 ++ "." ++ metric) s.2) ∨
      ∀ max, ofHandler id pods max metric h
        = [forPods id h metric (pods.getD Subset.baseName [])] := by
  by_cases hquery : h.query = ""
  · exact .inl fun max => (asks_ofHandler id pods max metric h).blank hquery
  · by_cases hselects : SelectsPods id h
    · exact .inr (.inl fun _ => ofHandler_of_selectsPods hquery hselects)
    · exact .inr (.inr fun _ => ofHandler_of_not_selectsPods hquery hselects)

/-- A larger bound only adds to what is asked. -/
theorem ofHandler_sublist {less : Nat} (hle : less ≤ max) :
    (ofHandler id pods less metric h).Sublist (ofHandler id pods max metric h) := by
  rcases ofHandler_cases id pods metric h with hnone | heach | honce
  · rw [hnone, hnone]
  · rw [heach, heach]
    exact (List.take_prefix_take_left hle).sublist.map _
  · rw [honce, honce]

/-! ## Names

The subset of a query, if it has one, stands before the first dot of its name. -/

/-- The names that queries of a metric have. -/
def Names (pods : PodGroups) (metric n : String) : Prop :=
  n = metric ∨ ∃ s ∈ pods, n = s ++ "." ++ metric

theorem names_of_mem_ofHandler (hq : q ∈ ofHandler id pods max metric h) :
    Names pods metric q.name := by
  rcases ofHandler_cases id pods metric h with hnone | heach | honce
  · rw [hnone] at hq
    cases hq
  · rw [heach] at hq
    obtain ⟨⟨s, ps⟩, hs, rfl⟩ := List.mem_map.1 hq
    obtain ⟨hmem, -⟩ := Std.ExtTreeMap.getElem?_eq_some_iff.1
      (mem_subsetOrder.1 (List.mem_of_mem_take hs)).1
    exact .inr ⟨s, hmem, rfl⟩
  · rw [honce, List.mem_singleton] at hq
    exact .inl (by rw [hq]; rfl)

/-- The queries of one handler have different names. -/
theorem nodup_names_ofHandler (id : ResourceId) (pods : PodGroups) (max : Nat) (metric : String)
    (h : QueryHandler) : ((ofHandler id pods max metric h).map (·.name)).Nodup := by
  rcases ofHandler_cases id pods metric h with hnone | heach | honce
  · rw [hnone]
    exact List.nodup_nil
  · have hnames : (((subsetOrder pods).take max).map Prod.fst).Nodup :=
      (inOrder_subsetOrder pods).nodup_names.sublist ((List.take_sublist ..).map _)
    have hjoined := hnames.map (f := fun s => s ++ "." ++ metric) fun s s' heq => by
      simpa only [String.append_left_inj] using heq
    rw [List.map_map] at hjoined
    rw [heach, List.map_map]
    exact hjoined
  · rw [honce]
    exact List.nodup_singleton _

/-- No subset has a dot in its name, and no metric a name that is meant for the entries of a
subset. -/
structure Apart (pods : PodGroups) (handlers : Handlers) : Prop where
  dotless : ∀ s ∈ pods, '.' ∉ s.toList
  noPod : "pod" ∉ handlers
  noSubset : ∀ s ∈ pods, ∀ metric ∈ handlers, ¬ (s ++ ".").toList <+: metric.toList

/-- A name without a dot can be told from what is joined to it. -/
theorem append_dot_inj (hs : '.' ∉ s.toList) (hs' : '.' ∉ s'.toList)
    (heq : s ++ "." ++ n = s' ++ "." ++ metric) : s = s' ∧ n = metric := by
  have hjoined : ∀ a b : String, (a ++ "." ++ b).toList = a.toList ++ '.' :: b.toList := by
    intro a b
    rw [String.toList_append, String.toList_append, List.append_assoc]
    rfl
  have htexts := congrArg String.toList heq
  rw [hjoined, hjoined] at htexts
  obtain ⟨hbefore, hbehind⟩ := Text.append_cons_inj_of_first hs hs' htexts
  exact ⟨String.toList_inj.1 hbefore, String.toList_inj.1 hbehind⟩

theorem Apart.ne_append (h : Apart pods handlers) (hmetric : metric ∈ handlers) (hs : s ∈ pods)
    (n : String) : metric ≠ s ++ "." ++ n := by
  rintro rfl
  refine h.noSubset s hs _ hmetric ?_
  simp only [String.toList_append]
  exact List.prefix_append ..

/-- The name of a query tells the metric. -/
theorem Apart.metric_eq (h : Apart pods handlers) (hmetric : metric ∈ handlers)
    (hmetric' : metric' ∈ handlers)
    (hn : Names pods metric n) (hn' : Names pods metric' n) : metric = metric' := by
  rcases hn with rfl | ⟨s, hs, rfl⟩ <;> rcases hn' with hn' | ⟨s', hs', hn'⟩
  · exact hn'
  · exact absurd hn' (h.ne_append hmetric hs' _)
  · exact absurd hn'.symm (h.ne_append hmetric' hs _)
  · exact (append_dot_inj (h.dotless s hs) (h.dotless s' hs') hn').2

/-- No query is stored where the number of pods of a subset stands. -/
theorem Apart.ne_pod (h : Apart pods handlers) (hmetric : metric ∈ handlers)
    (hn : Names pods metric n) (hs : s ∈ pods) : n ≠ s ++ ".pod" := by
  have hsplit : s ++ ".pod" = s ++ "." ++ "pod" := by
    rw [String.append_assoc]
    rfl
  rw [hsplit]
  rintro rfl
  rcases hn with hn | ⟨s', hs', hn⟩
  · exact h.ne_append hmetric hs "pod" hn.symm
  · exact h.noPod ((append_dot_inj (h.dotless s hs) (h.dotless s' hs') hn).2 ▸ hmetric)

/-! ## What all handlers ask

They ask one after another, in the order of their metrics. -/

theorem mem_handlers_of_mem_toList {p : String × QueryHandler} (hp : p ∈ handlers.toList) :
    p.1 ∈ handlers := by
  obtain ⟨hmem, -⟩ := Std.ExtTreeMap.getElem?_eq_some_iff.1
    (Std.ExtTreeMap.mem_toList_iff_getElem?_eq_some.1 hp)
  exact hmem

theorem Apart.nodup_names (h : Apart pods handlers) (id : ResourceId) (max : Nat) :
    ((render id pods handlers max).map (·.name)).Nodup := by
  rw [render, List.map_flatMap, List.nodup_flatMap]
  refine ⟨fun p _ => nodup_names_ofHandler id pods max p.1 p.2, ?_⟩
  refine Std.ExtTreeMap.distinct_keys_toList.imp_of_mem fun {p p'} hp hp' hne n hn hn' => hne ?_
  -- a name that two handlers share would make them one
  obtain ⟨q, hq, rfl⟩ := List.mem_map.1 hn
  obtain ⟨q', hq', hname⟩ := List.mem_map.1 hn'
  have hmetric : p.1 = p'.1 := h.metric_eq (mem_handlers_of_mem_toList hp)
    (mem_handlers_of_mem_toList hp')
    (names_of_mem_ofHandler hq) (hname ▸ names_of_mem_ofHandler hq')
  rw [hmetric]
  exact Std.ReflCmp.compare_self

theorem Apart.name_ne_pod (h : Apart pods handlers) (hq : q ∈ render id pods handlers max)
    (hs : s ∈ pods) : q.name ≠ s ++ ".pod" := by
  obtain ⟨p, hp, hq⟩ := List.mem_flatMap.1 hq
  exact h.ne_pod (mem_handlers_of_mem_toList hp) (names_of_mem_ofHandler hq) hs

/-- **No two queries are stored under one name**, and none where the number of pods of a subset
stands, as long as the subsets and metrics are named apart. Each handler asks as often as it should,
and a larger bound only adds to what is asked. -/
theorem queries_apart (id : ResourceId) (pods : PodGroups) (handlers : Handlers) (max : Nat) :
    (∃ subsets, InOrder pods subsets ∧ ∃ blocks : List (List Query),
        render id pods handlers max = blocks.flatten ∧
          List.Forall₂ (fun p => Asks id pods subsets max p.1 p.2) handlers.toList blocks) ∧
      (Apart pods handlers → ((render id pods handlers max).map (·.name)).Nodup ∧
        ∀ q ∈ render id pods handlers max, ∀ s ∈ pods, q.name ≠ s ++ ".pod") ∧
      ∀ less ≤ max, (render id pods handlers less).Sublist (render id pods handlers max) := by
  refine ⟨⟨subsetOrder pods, inOrder_subsetOrder pods, ?_⟩,
    fun h => ⟨h.nodup_names id max, fun q hq s hs => h.name_ne_pod hq hs⟩, fun less hle => ?_⟩
  · refine ⟨handlers.toList.map fun p =>
      ofHandler id pods max p.1 p.2, by rw [render, List.flatMap_def], ?_⟩
    exact List.forall₂_map_right_iff.2 (List.forall₂_same.2 fun p _ =>
      asks_ofHandler id pods max p.1 p.2)
  · exact List.Sublist.flatMap_right _ fun p _ => ofHandler_sublist hle

/-- The pods of a service with two versions, the second of which has none. -/
def versionGroups : PodGroups :=
  Std.ExtTreeMap.ofList [("_base", ["reviews-v1-a", "reviews-v2-b"]),
    ("v1", ["reviews-v1-a"]), ("v2", [])]

/-- A handler that selects pods, one that does not, and a blank one. -/
def versionHandlers : Handlers :=
  (∅ : Handlers).insert "cpu.sum" { query := "sum(cpu\x7bpod=~\"$pod_name\"\x7d)" }
    |>.insert "rps" { query := "sum(rps\x7bnamespace=\"$namespace\"\x7d)" }
    |>.insert "idle" { query := "" }

theorem queries_apart_versions :
    Apart versionGroups versionHandlers ∧
      (render { ns := "default", name := "reviews" } versionGroups versionHandlers 8).map (·.name)
        = ["_base.cpu.sum", "v1.cpu.sum", "rps"] ∧
      ((render { ns := "default", name := "reviews" } versionGroups versionHandlers 8).map
        (·.name)).Nodup := by
  have hapart : Apart versionGroups versionHandlers := by
    have hdotless : ∀ s ∈ versionGroups.keys, '.' ∉ s.toList := by decide
    have hsubset : ∀ s ∈ versionGroups.keys, ∀ metric ∈ versionHandlers.keys,
        ¬ (s ++ ".").toList <+: metric.toList := by decide
    refine ⟨fun s hs => hdotless s (Std.ExtTreeMap.mem_keys.2 hs), by decide,
      fun s hs metric hmetric => ?_⟩
    exact hsubset s (Std.ExtTreeMap.mem_keys.2 hs) metric (Std.ExtTreeMap.mem_keys.2 hmetric)
  exact ⟨hapart, by decide, ((queries_apart _ versionGroups versionHandlers 8).2.1 hapart).1⟩

end Query

end MeshLimiter
