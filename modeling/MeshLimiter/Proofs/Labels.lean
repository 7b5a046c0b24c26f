import MeshLimiter.Labels
/-!
# What selectors pick

* **`Labels.selectedBy_iff`**: a selector picks the labels that have all of its pairs;
* **`Labels.getElem?_overlaid`**: in labels written over others, the upper pair of a name is read;
* **`Labels.selectedBy_overlaid`**: what both of two selectors pick is picked by one written over
  the other;
* **`Labels.Agrees.selectedBy_overlaid_iff`**: if no name stands in both with two values, nothing
  else is.
-/

namespace MeshLimiter

namespace Labels

/-- No name has one value here and another there. -/
def Agrees (selector other : Labels) : Prop :=
  ∀ k v v' : String, selector[k]? = some v → other[k]? = some v' → v = v'

variable {labels selector other : Labels}

theorem selectedBy_iff : labels.selectedBy selector = true ↔
    ∀ k v : String, selector[k]? = some v → labels[k]? = some v := by
  simp only [selectedBy, List.all_eq_true, Prod.forall,
    Std.ExtTreeMap.mem_toList_iff_getElem?_eq_some, beq_iff_eq]

@[simp] theorem selectedBy_empty (labels : Labels) : labels.selectedBy ∅ = true :=
  selectedBy_iff.2 fun k v h => by
    rw [Std.ExtTreeMap.getElem?_empty] at h
    cases h

theorem selectedBy_self (labels : Labels) : labels.selectedBy labels = true :=
  selectedBy_iff.2 fun _ _ h => h

theorem getElem?_overlaid (labels other : Labels) (k : String) :
    (labels.overlaid other)[k]? = other[k]?.or labels[k]? := by
  rw [overlaid, Std.ExtTreeMap.foldl_eq_foldl_toList, ← Std.ExtTreeMap.insertMany_list_eq_foldl]
  cases hk : other[k]? with
  | some v =>
    exact Std.ExtTreeMap.getElem?_insertMany_list_of_mem (Std.LawfulEqCmp.compare_eq_iff_eq.2 rfl)
      Std.ExtTreeMap.distinct_keys_toList (Std.ExtTreeMap.mem_toList_iff_getElem?_eq_some.2 hk)
  | none =>
    refine Std.ExtTreeMap.getElem?_insertMany_list_of_contains_eq_false ?_
    rw [Std.ExtTreeMap.map_fst_toList_eq_keys, ← Bool.not_eq_true, List.contains_iff_mem,
      Std.ExtTreeMap.mem_keys, Std.ExtTreeMap.mem_iff_isSome_getElem?, hk]
    decide

/-- A selector that another is written over picks what both of them pick. -/
theorem selectedBy_overlaid (hselector : labels.selectedBy selector = true)
    (hother : labels.selectedBy other = true) :
    labels.selectedBy (selector.overlaid other) = true := by
  rw [selectedBy_iff] at hselector hother ⊢
  intro k v h
  rw [getElem?_overlaid, Option.or_eq_some_iff] at h
  rcases h with h | ⟨-, h⟩
  · exact hother k v h
  · exact hselector k v h

/-- What it picks, the one that is written on top picks. -/
theorem selectedBy_of_overlaid (h : labels.selectedBy (selector.overlaid other) = true) :
    labels.selectedBy other = true := by
  rw [selectedBy_iff] at h ⊢
  intro k v hk
  exact h k v (by rw [getElem?_overlaid, hk]; rfl)

/-- Of two selectors that agree, one written over the other picks what both of them pick. -/
theorem Agrees.selectedBy_overlaid_iff (h : selector.Agrees other) :
    labels.selectedBy (selector.overlaid other) = true ↔
      labels.selectedBy selector = true ∧ labels.selectedBy other = true := by
  refine ⟨fun hboth => ⟨?_, selectedBy_of_overlaid hboth⟩, fun ⟨hselector, hother⟩ =>
    selectedBy_overlaid hselector hother⟩
  rw [selectedBy_iff] at hboth ⊢
  intro k v hk
  refine hboth k v ?_
  rw [getElem?_overlaid, hk]
  -- where the upper one has the name too, it has the same value
  cases hother : other[k]? with
  | none => rfl
  | some v' => exact congrArg some (h k v v' hk hother).symm

/-- They agree if the one picks what results from writing the other over it. -/
theorem agrees_of_selectedBy (h : (selector.overlaid other).selectedBy selector = true) :
    selector.Agrees other := by
  intro k v v' hv hv'
  have hk := selectedBy_iff.1 h k v hv
  rw [getElem?_overlaid, hv'] at hk
  exact (Option.some.inj hk).symm

end Labels

end MeshLimiter
