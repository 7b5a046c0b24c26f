import MeshLimiter.Proofs.Compile.Keys
import MeshLimiter.Proofs.Query.Keeping
import MeshLimiter.Proofs.Query.Pods
/-!
# How many pods a subset has

The pods that are found are sorted into subsets, and the number of each subset's pods is stored for
templates to divide by. A subset has an entry exactly if it has pods, so that no number is zero; and
none is larger than that of the base subset, which has them all.

* **`PodGroups.live`**, **`PodGroups.carriersOf`**: the pods that count, and those of them that a
  subset picks;
* **`PodGroups.getElem?_ofPods_base`**, **`PodGroups.getElem?_ofPods_listed`**,
  **`PodGroups.getElem?_ofPods_other`**: what each name stands for once the pods are sorted;
* **`Collected.get?_podCounts`**: the number that is stored for a subset;
* **`PodGroups.pods_counted_once`**: every pod that counts is counted where it belongs.
-/

namespace MeshLimiter

/-! ## Pods that count

A pod counts if it is not being deleted, and is listed if it has a name. -/

namespace PodGroups

/-- The pods that are not being deleted. -/
def live (pods : List Pod) : List Pod :=
  pods.filter fun p => !p.terminating

/-- The names of pods; those without one are left out. -/
def names (pods : List Pod) : List String :=
  pods.filterMap (·.metadata.name)

/-- The pods that carry all labels of a subset. -/
def carriersOf (s : Subset) (pods : List Pod) : List Pod :=
  pods.filter fun p => p.labels.selectedBy s.labels

/-- Some names, unless there are none. -/
def group? (ns : List String) : Option (List String) :=
  if ns = [] then none else some ns

variable {pods : List Pod} {subsets : List Subset} {s : Subset} {groups : PodGroups}
  {n pod : String}

/-- There are names. -/
theorem group?_eq_some_iff {ns ns' : List String} : group? ns = some ns' ↔ ns ≠ [] ∧ ns = ns' := by
  unfold group?
  split
  · next hnil => simp [hnil]
  · next hne => simp [hne]

/-- The names of the pods that count, in their order. -/
theorem filterMap_liveName? (pods : List Pod) : pods.filterMap liveName? = names (live pods) := by
  have hlive : liveName? = fun p => if !p.terminating then p.metadata.name else none := by
    funext p
    unfold liveName?
    cases p.terminating <;> rfl
  rw [names, live, List.filterMap_filter, hlive]

theorem filterMap_liveName?_filter (s : Subset) (pods : List Pod) :
    (pods.filter fun p => p.labels.selectedBy s.labels).filterMap liveName?
      = names (carriersOf s (live pods)) := by
  rw [filterMap_liveName?, carriersOf, live, live, List.filter_filter, List.filter_filter]
  simp only [Bool.and_comm]

/-- A pod that counts carries every label of the subset. -/
theorem mem_carriersOf_live {p : Pod} :
    p ∈ carriersOf s (live pods) ↔ p ∈ pods ∧ p.terminating = false ∧
    ∀ k v : String, s.labels[k]? = some v → p.labels[k]? = some v := by
  rw [carriersOf, live, List.mem_filter, List.mem_filter, Labels.selectedBy_iff, and_assoc,
    Bool.not_eq_true']

/-! ## No subset without pods

A subset has an entry from its first pod on. -/

/-- Every subset that has an entry has pods. -/
def Filled (groups : PodGroups) : Prop :=
  ∀ n : String, groups[n]? ≠ some []

/-- The pod that was added is there. -/
theorem Filled.addTo (h : Filled groups) (subset pod : String) :
    Filled (groups.addTo subset pod) := by
  intro n
  rw [PodGroups.addTo, Std.ExtTreeMap.getElem?_insert]
  split
  · simp
  · exact h n

theorem Filled.foldl_addTo (h : Filled groups) (picked : List Subset) (pod : String) :
    Filled (picked.foldl (fun g s => g.addTo s.name pod) groups) :=
  List.foldlRecOn picked _ h fun _ hgroups s _ => hgroups.addTo s.name pod

/-- A pod is added to each subset that picks it. -/
theorem Filled.add (h : Filled groups) (subsets : List Subset) (p : Pod) :
    Filled (add subsets groups p) := by
  unfold PodGroups.add
  cases liveName? p with
  | none => exact h
  | some name => exact (h.foldl_addTo _ name).addTo _ name

/-- From no entries on. -/
theorem filled_ofPods (pods : List Pod) (subsets : List Subset) : Filled (ofPods pods subsets) := by
  have hempty : Filled ∅ := by
    intro n
    rw [Std.ExtTreeMap.getElem?_empty]
    exact nofun
  exact List.foldlRecOn pods (add subsets) hempty fun _ hgroups p _ => hgroups.add subsets p

/-- So an entry is there exactly if it has pods. -/
theorem Filled.getElem?_eq (h : Filled groups) (n : String) :
    groups[n]? = group? (groups.getD n []) := by
  rw [Std.ExtTreeMap.getD_eq_getD_getElem?, group?]
  cases hn : groups[n]? with
  | none => rfl
  | some ns => exact (if_neg fun hnil => h n (by rw [hn]; exact congrArg some hnil)).symm

/-! ## What a name stands for

The base subset has all pods that count, a listed subset those that carry its labels, and nothing
else has any. -/

/-- Those are the base and the listed ones but for the reserved name. -/
theorem mem_withBase_iff (hnames : (subsets.map (·.name)).Nodup) :
    s ∈ Subset.withBase subsets ↔ s = Subset.base ∨ s ∈ subsets ∧ s.isBase = false := by
  refine ⟨Subset.mem_withBase, fun h => ?_⟩
  -- some subset goes by the name, and it is this one
  have hname : s.name ∈ (Subset.withBase subsets).map (·.name) := by
    rw [Subset.mem_map_name_withBase]
    exact h.imp (congrArg Subset.name) fun h => List.mem_map.2 ⟨s, h.1, rfl⟩
  have hother : ∀ {t : Subset}, t.isBase = false → t.name ≠ Subset.baseName := fun ht =>
    beq_eq_false_iff_ne.1 ht
  obtain ⟨t, ht, heq⟩ := List.mem_map.1 hname
  rcases h with rfl | ⟨hs, hbase⟩ <;> rcases Subset.mem_withBase ht with rfl | ⟨ht', htbase⟩
  · exact ht
  · exact absurd heq (hother htbase)
  · exact absurd heq.symm (hother hbase)
  · exact Subset.eq_of_name_eq hnames hs ht' heq ▸ ht

theorem getElem?_ofPods_base (hnames : (subsets.map (·.name)).Nodup) (pods : List Pod) :
    (ofPods pods subsets)[Subset.baseName]? = group? (names (live pods)) := by
  have hpods := getD_ofPods hnames ((mem_withBase_iff hnames).2 (.inl rfl)) pods
  have hall : carriersOf Subset.base (live pods) = live pods :=
    List.filter_eq_self.2 fun p _ => Labels.selectedBy_empty p.labels
  rw [filterMap_liveName?_filter, hall] at hpods
  rw [(filled_ofPods pods subsets).getElem?_eq]
  exact congrArg group? hpods

theorem getElem?_ofPods_listed (hnames : (subsets.map (·.name)).Nodup) (hs : s ∈ subsets)
    (hbase : s.isBase = false) (pods : List Pod) :
    (ofPods pods subsets)[s.name]? = group? (names (carriersOf s (live pods))) := by
  rw [(filled_ofPods pods subsets).getElem?_eq,
    getD_ofPods hnames ((mem_withBase_iff hnames).2 (.inr ⟨hs, hbase⟩)), filterMap_liveName?_filter]

/-- A pod is added under no name but those of the subsets. -/
theorem getD_add_other (hbase : n ≠ Subset.baseName) (hother : ∀ s ∈ subsets, s.name ≠ n)
    (groups : PodGroups) (p : Pod) : (add subsets groups p).getD n [] = groups.getD n [] := by
  unfold add
  cases liveName? p with
  | none => rfl
  | some name =>
    dsimp only
    have hnone : ∀ keep : Subset → Bool, (subsets.filter keep).filter (·.name = n)
        = [] := fun keep =>
      List.filter_eq_nil_iff.2 fun s hs hname => hother s (List.mem_filter.1 hs).1
      (of_decide_eq_true hname)
    rw [getD_addTo, getD_foldl_addTo, hnone, if_neg hbase.symm]
    simp

theorem getElem?_ofPods_other (hbase : n ≠ Subset.baseName) (hother : ∀ s ∈ subsets, s.name ≠ n)
    (pods : List Pod) : (ofPods pods subsets)[n]? = none := by
  have hnone : (ofPods pods subsets).getD n [] = [] :=
    List.foldlRecOn (motive := fun groups : PodGroups => groups.getD n [] = []) pods (add subsets)
      Std.ExtTreeMap.getD_empty fun groups hgroups p _ =>
      (getD_add_other hbase hother groups p).trans hgroups
  rw [(filled_ofPods pods subsets).getElem?_eq, hnone]
  rfl

/-- A listed subset that goes by the reserved name is passed over. -/
theorem ofPods_filter_isBase (pods : List Pod) (subsets : List Subset) :
    ofPods pods (subsets.filter fun s => !s.isBase) = ofPods pods subsets := by
  have hadd : add (subsets.filter fun s => !s.isBase) = add subsets := by
    funext groups p
    unfold add
    cases liveName? p with
    | none => rfl
    | some name =>
      dsimp only
      rw [List.filter_filter]
      refine congrArg (fun picked : List Subset => (picked.foldl _ groups).addTo _ name) ?_
      refine List.filter_congr fun s _ => ?_
      cases s.isBase <;> simp
  rw [ofPods, hadd, ofPods]

/-- No subset has more pods than the base subset. -/
theorem length_le_base (hnames : (subsets.map (·.name)).Nodup) {ns : List String}
    (hn : (ofPods pods subsets)[n]? = some ns) :
    ∃ all, (ofPods pods subsets)[Subset.baseName]? = some all ∧ ns.length ≤ all.length := by
  by_cases hbase : n = Subset.baseName
  · exact ⟨ns, hbase ▸ hn, Nat.le_refl _⟩
  · by_cases hlisted : ∃ s ∈ subsets, s.name = n
    · obtain ⟨s, hs, rfl⟩ := hlisted
      rw [getElem?_ofPods_listed hnames hs (beq_eq_false_iff_ne.2 hbase)] at hn
      obtain ⟨hne, rfl⟩ := group?_eq_some_iff.1 hn
      -- its pods are among those of the base subset, which has some as well
      have hsub : (names (carriersOf s (live pods))).Sublist (names (live pods)) :=
        List.filter_sublist.filterMap _
      have hall : names (live pods) ≠ [] := fun hnil => hne (List.sublist_nil.1 (hnil ▸ hsub))
      refine ⟨_, ?_, hsub.length_le⟩
      rw [getElem?_ofPods_base hnames]
      exact group?_eq_some_iff.2 ⟨hall, rfl⟩
    · rw [getElem?_ofPods_other hbase fun s hs hname => hlisted ⟨s, hs, hname⟩] at hn
      cases hn

end PodGroups

namespace Collected

/-- The number of pods of a subset, and where it is stored. -/
def podCount (group : String × List String) : String × String :=
  (group.1 ++ ".pod", Decimal.natText group.2.length)

theorem values_podCounts (groups : PodGroups) :
    (podCounts groups).values = Std.ExtTreeMap.ofList (groups.toList.map podCount) := by
  have hfold : ∀ (gs : List (String × List String)) (m : Material),
      (gs.foldl (fun m g => m.insert (g.1 ++ ".pod") (Decimal.natText g.2.length)) m).values
        = m.values.insertMany (gs.map podCount) := by
    intro gs
    induction gs with
    | nil => exact fun m => Std.ExtTreeMap.insertMany_nil.symm
    | cons g gs ih =>
      intro m
      rw [List.foldl_cons, ih, List.map_cons, Std.ExtTreeMap.insertMany_cons]
      rfl
  rw [podCounts, Std.ExtTreeMap.foldl_eq_foldl_toList, hfold,
    Std.ExtTreeMap.ofList_eq_insertMany_empty]

/-- **The number that is stored for a subset** is that of its pods. -/
theorem get?_podCounts (groups : PodGroups) (n : String) :
    (podCounts groups).get? (n ++ ".pod") = groups[n]?.map fun ns => Decimal.natText ns.length := by
  show (podCounts groups).values[n ++ ".pod"]? = _
  rw [values_podCounts]
  cases hn : groups[n]? with
  | some ns =>
    -- names differ, so their keys do
    refine Std.ExtTreeMap.getElem?_ofList_of_mem (Std.LawfulEqCmp.compare_eq_iff_eq.2 rfl) ?_
      (List.mem_map.2 ⟨(n, ns), Std.ExtTreeMap.mem_toList_iff_getElem?_eq_some.2 hn, rfl⟩)
    refine List.pairwise_map.2 (Std.ExtTreeMap.distinct_keys_toList.imp
      fun {g g'} hne heq => hne ?_)
    have hkey : g.1 ++ ".pod" = g'.1 ++ ".pod" := Std.LawfulEqCmp.compare_eq_iff_eq.1 heq
    exact Std.LawfulEqCmp.compare_eq_iff_eq.2 ((String.append_left_inj ".pod").1 hkey)
  | none =>
    refine Std.ExtTreeMap.getElem?_ofList_of_contains_eq_false ?_
    rw [← Bool.not_eq_true, List.contains_iff_mem, List.map_map]
    intro hmem
    obtain ⟨⟨m, ns⟩, hm, hkey⟩ := List.mem_map.1 hmem
    obtain rfl : m = n := (String.append_left_inj ".pod").1 hkey
    have hm := Std.ExtTreeMap.mem_toList_iff_getElem?_eq_some.1 hm
    rw [hn] at hm
    cases hm

end Collected

namespace PodGroups

/-- Where pods are counted that are sorted into subsets. -/
structure CountsOnce (pods : List Pod) (subsets : List Subset) (groups : PodGroups) : Prop where
  /-- All pods that are not being deleted are pods of the base subset. -/
  base : groups[Subset.baseName]? = group? (names (live pods))
  /-- Those of another subset carry its labels. -/
  listed : ∀ s ∈ subsets, s.isBase = false →
    groups[s.name]? = group? (names (carriersOf s (live pods)))
  carriers : ∀ s p, p ∈ carriersOf s (live pods) ↔ p ∈ pods ∧ p.terminating = false ∧
    ∀ k v : String, s.labels[k]? = some v → p.labels[k]? = some v
  other : ∀ n, n ≠ Subset.baseName → (∀ s ∈ subsets, s.name ≠ n) → groups[n]? = none
  /-- A listed subset that goes by the reserved name is passed over. -/
  reserved : ofPods pods (subsets.filter fun s => !s.isBase) = groups
  /-- The numbers that are stored are those of the pods. -/
  stored : ∀ n, (Collected.podCounts groups).get? (n ++ ".pod")
    = groups[n]?.map fun ns => Decimal.natText ns.length
  /-- None of them is zero, or larger than that of the base subset. -/
  bounded : ∀ (n : String) (ns : List String), groups[n]? = some ns →
    0 < ns.length ∧ ∃ all, groups[Subset.baseName]? = some all ∧ ns.length ≤ all.length

/-- **Every pod that counts is counted where it belongs**: once in the base subset, once in each
other subset whose labels it carries, and nowhere else. -/
theorem pods_counted_once (pods : List Pod) {subsets : List Subset}
    (hnames : (subsets.map (·.name)).Nodup) : CountsOnce pods subsets (ofPods pods subsets) := by
  refine
    { base := getElem?_ofPods_base hnames pods
      listed := fun s hs hbase => getElem?_ofPods_listed hnames hs hbase pods
      carriers := fun _ _ => mem_carriersOf_live
      other := fun n hbase hother => getElem?_ofPods_other hbase hother pods
      reserved := ofPods_filter_isBase pods subsets
      stored := Collected.get?_podCounts _
      bounded := fun n ns hn => ⟨?_, length_le_base hnames hn⟩ }
  exact List.length_pos_iff.2 fun hnil => filled_ofPods pods subsets n (hnil ▸ hn)

/-- Pods of two versions, one of which is being deleted, and one without a name. -/
def versionPods : List Pod :=
  let pod (name : Option String) (version : String) : Pod :=
    { metadata :=
        { name
          labels := some (Std.ExtTreeMap.ofList [("app", "reviews"), ("version", version)]) } }
  [pod (some "reviews-v1-a") "v1", pod (some "reviews-v2-a") "v2",
    { pod (some "reviews-v1-b") "v1" with terminating := true }, pod none "v1"]

/-- Two versions, the second of which has no pods, and a subset that goes by the reserved name. -/
def versionSubsets : List Subset :=
  [{ name := Subset.baseName, labels := Std.ExtTreeMap.ofList [("version", "v2")] },
    { name := "v1", labels := Std.ExtTreeMap.ofList [("version", "v1")] },
    { name := "v3", labels := Std.ExtTreeMap.ofList [("version", "v3")] }]

theorem pods_counted_once_versions :
    (versionSubsets.map (·.name)).Nodup ∧
      (ofPods versionPods versionSubsets).toList =
        [("_base", ["reviews-v1-a", "reviews-v2-a"]), ("v1", ["reviews-v1-a"])] ∧
      CountsOnce versionPods versionSubsets (ofPods versionPods versionSubsets) := by
  have hnames : (versionSubsets.map (·.name)).Nodup := by decide
  exact ⟨hnames, by decide, pods_counted_once versionPods hnames⟩

end PodGroups

end MeshLimiter
