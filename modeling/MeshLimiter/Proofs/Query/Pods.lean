import MeshLimiter.Proofs.Compile.Rules
import MeshLimiter.Proofs.Labels
import MeshLimiter.Query.Pods
/-!
# Where pods are counted

* **`Subset.mem_withBase`**: a subset that is reckoned with is the base subset, or one of the list
  with another name;
* **`PodGroups.getD_ofPods`**: the pods of a subset are those of the list that count and carry the
  labels of the subset, in their order.
-/

namespace MeshLimiter

/-- The labels of a pod, none if none are given. -/
def Pod.labels (p : Pod) : Labels :=
  p.metadata.labels.getD ∅

namespace Subset

variable {subsets : List Subset} {s s' : Subset}

/-- Where names are given once, a subset is the only one of its name. -/
theorem filter_name_eq (hnames : (subsets.map (·.name)).Nodup) (hs : s ∈ subsets) :
    subsets.filter (·.name = s.name) = [s] := by
  induction subsets with
  | nil => cases hs
  | cons s' subsets ih =>
    obtain ⟨hs', hrest⟩ := List.nodup_cons.1 (List.map_cons ▸ hnames)
    rcases List.mem_cons.1 hs with rfl | hs
    · rw [List.filter_cons_of_pos (by simp), List.filter_eq_nil_iff.2]
      intro s' hmem hname
      exact hs' (List.mem_map.2 ⟨s', hmem, of_decide_eq_true hname⟩)
    · rw [List.filter_cons_of_neg, ih hrest hs]
      intro hname
      exact hs' (List.mem_map.2 ⟨s, hs, (of_decide_eq_true hname).symm⟩)

theorem eq_of_name_eq (hnames : (subsets.map (·.name)).Nodup) (hs : s ∈ subsets)
    (hs' : s' ∈ subsets) (hname : s'.name = s.name) : s' = s := by
  have hmem : s' ∈ subsets.filter (·.name = s.name) :=
    List.mem_filter.2 ⟨hs', decide_eq_true hname⟩
  rw [filter_name_eq hnames hs] at hmem
  exact List.mem_singleton.1 hmem

/-- The base subset has no labels, and the others are of the list. -/
theorem mem_withBase (h : s ∈ withBase subsets) : s = base ∨ s ∈ subsets ∧ s.isBase = false := by
  have hfold : ∀ (ss known : List Subset), base ∈ known → s ∈ ss.foldl addNew known →
      s ∈ known ∨ s ∈ ss ∧ s.isBase = false := by
    intro ss
    induction ss with
    | nil => exact fun known _ h => .inl h
    | cons s' ss ih =>
      intro known hbase h
      rw [List.foldl_cons] at h
      unfold addNew at h
      split at h
      · exact (ih known hbase h).imp id fun ⟨hs, hname⟩ => ⟨List.mem_cons_of_mem _ hs, hname⟩
      · next hnew =>
        rcases ih _ (List.mem_append_left _ hbase) h with hs | ⟨hs, hname⟩
        · rcases List.mem_append.1 hs with hs | hs
          · exact .inl hs
          · -- a subset that is new has not the name of the base subset, which is known
            rw [List.mem_singleton] at hs
            refine .inr ⟨hs ▸ List.mem_cons_self, ?_⟩
            rw [isBase, beq_eq_false_iff_ne]
            intro hname
            exact hnew
              (List.any_eq_true.2 ⟨base, hbase, by rw [← hs, hname]; exact beq_self_eq_true _⟩)
        · exact .inr ⟨List.mem_cons_of_mem _ hs, hname⟩
  rcases hfold subsets [base] List.mem_cons_self h with h | h
  · exact .inl (List.mem_singleton.1 h)
  · exact .inr h

end Subset

namespace PodGroups

variable {subsets : List Subset} {s : Subset} {n pod : String}

theorem getD_addTo (groups : PodGroups) (subset pod n : String) :
    (groups.addTo subset pod).getD n [] = groups.getD n [] ++ if subset = n then [pod] else [] := by
  rw [addTo, Std.ExtTreeMap.getD_insert]
  split
  · next h =>
    obtain rfl := Std.LawfulEqCmp.compare_eq_iff_eq.1 h
    rw [if_pos rfl]
  · next h => rw [if_neg fun heq => h (Std.LawfulEqCmp.compare_eq_iff_eq.2 heq), List.append_nil]

/-- A pod is added to each subset as often as the subset's name is among those that pick it. -/
theorem getD_foldl_addTo (picked : List Subset) (groups : PodGroups) (pod n : String) :
    (picked.foldl (fun g s => g.addTo s.name pod) groups).getD n [] =
      groups.getD n [] ++ (picked.filter (·.name = n)).map fun _ => pod := by
  induction picked generalizing groups with
  | nil => exact (List.append_nil _).symm
  | cons s picked ih =>
    rw [List.foldl_cons, ih, getD_addTo, List.filter_cons, List.append_assoc]
    by_cases h : s.name = n <;> simp [h]

theorem filter_picked (hnames : (subsets.map (·.name)).Nodup) (hs : s ∈ subsets)
    (hbase : s.isBase = false) (labels : Labels) :
    (subsets.filter fun s' => !s'.isBase && labels.selectedBy s'.labels).filter (·.name = s.name) =
      if labels.selectedBy s.labels then [s] else [] := by
  have hswap : (fun s' : Subset => decide (s'.name = s.name) &&
      (!s'.isBase && labels.selectedBy s'.labels)) =
      fun s' => (!s'.isBase && labels.selectedBy s'.labels) && decide (s'.name = s.name) :=
    funext fun _ => Bool.and_comm ..
  rw [List.filter_filter, hswap, ← List.filter_filter, Subset.filter_name_eq hnames hs]
  cases hpick : labels.selectedBy s.labels <;> simp [hbase, hpick]

theorem getD_add (hnames : (subsets.map (·.name)).Nodup) (hs : s ∈ Subset.withBase subsets)
    (groups : PodGroups) (p : Pod) : (add subsets groups p).getD s.name [] =
      groups.getD s.name [] ++ if p.labels.selectedBy s.labels then (liveName? p).toList
      else [] := by
  unfold add
  have hlabels : (p.metadata.labels.getD ∅ : Labels) = p.labels := rfl
  cases liveName? p with
  | none => simp
  | some name =>
    dsimp only
    rw [getD_addTo, getD_foldl_addTo]
    rcases Subset.mem_withBase hs with rfl | ⟨hmem, hbase⟩
    · -- the base subset has every pod, and no other subset has its name
      have hnone : ((subsets.filter fun s' => !s'.isBase && p.labels.selectedBy s'.labels).filter
          (·.name = Subset.base.name)) = [] := by
        rw [List.filter_eq_nil_iff]
        intro s' hs' hname
        have hother := (Bool.and_eq_true_iff.1 (List.mem_filter.1 hs').2).1
        rw [Bool.not_eq_true', Subset.isBase, beq_eq_false_iff_ne] at hother
        exact hother (of_decide_eq_true hname)
      have hall : p.labels.selectedBy Subset.base.labels = true := Labels.selectedBy_empty _
      rw [hlabels, hnone, if_pos hall]
      simp [Subset.base]
    · have hname : Subset.baseName ≠ s.name := fun h => by
        rw [Subset.isBase, ← h] at hbase
        cases hbase.symm.trans (beq_self_eq_true _)
      rw [hlabels, filter_picked hnames hmem hbase, if_neg hname, List.append_nil]
      split <;> rfl

/-- **The pods of a subset** are those of the list that count and carry its labels, in their
order. -/
theorem getD_ofPods (hnames : (subsets.map (·.name)).Nodup) (hs : s ∈ Subset.withBase subsets)
    (pods : List Pod) : (ofPods pods subsets).getD s.name [] =
      (pods.filter fun p => p.labels.selectedBy s.labels).filterMap liveName? := by
  have hfold : ∀ groups : PodGroups, (pods.foldl (add subsets) groups).getD s.name [] =
      groups.getD s.name [] ++ (pods.filter fun p => p.labels.selectedBy s.labels).filterMap
        liveName? := by
    induction pods with
    | nil => exact fun groups => (List.append_nil _).symm
    | cons p pods ih =>
      intro groups
      rw [List.foldl_cons, ih, getD_add hnames hs, List.append_assoc, List.filter_cons]
      split
      · rw [List.filterMap_cons]
        cases liveName? p <;> rfl
      · rfl
  rw [ofPods, hfold, Std.ExtTreeMap.getD_empty, List.nil_append]

theorem mem_ofPods (hnames : (subsets.map (·.name)).Nodup) (hs : s ∈ Subset.withBase subsets)
    {pods : List Pod} : n ∈ (ofPods pods subsets).getD s.name [] ↔
      ∃ p ∈ pods, liveName? p = some n ∧ p.labels.selectedBy s.labels = true := by
  rw [getD_ofPods hnames hs, List.mem_filterMap]
  simp only [List.mem_filter]
  exact ⟨fun ⟨p, ⟨hp, hpick⟩, hn⟩ => ⟨p, hp, hn, hpick⟩, fun ⟨p, hp, hn, hpick⟩ =>
    ⟨p, ⟨hp, hpick⟩, hn⟩⟩

end PodGroups

end MeshLimiter
