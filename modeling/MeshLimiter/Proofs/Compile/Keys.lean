import MeshLimiter.Pass
import MeshLimiter.Proofs.Compile.Rules
/-!
# Which subsets get a filter

A limiter is compiled for the base subset and for every subset that is known. A pass brings about
those filters, and takes away those of subsets that had one written and are not known any more.

* **`mem_filters_compile`**: the subsets that a limiter is compiled for;
* **`mem_toList_desiredFilters`**: what the filter of a subset is to be;
* **`exists_mem_desiredFilters_of_written`**: no subset that had a filter written is left out.
-/

namespace MeshLimiter

namespace Subset

theorem mem_map_name_addNew (known : List Subset) (s : Subset) (n : String) :
    n ∈ (addNew known s).map (·.name) ↔ n ∈ known.map (·.name) ∨ n = s.name := by
  unfold addNew
  split
  · next h =>
    obtain ⟨k, hk, hks⟩ := List.any_eq_true.1 h
    have hks : k.name = s.name := by simpa using hks
    constructor
    · exact .inl
    · rintro (h | rfl)
      · exact h
      · exact List.mem_map.2 ⟨k, hk, hks⟩
  · simp

theorem mem_map_name_withBase (subsets : List Subset) (n : String) :
    n ∈ (withBase subsets).map (·.name) ↔ n = baseName ∨ n ∈ subsets.map (·.name) := by
  have hfold : ∀ known : List Subset, n ∈ (subsets.foldl addNew known).map (·.name) ↔
      n ∈ known.map (·.name) ∨ n ∈ subsets.map (·.name) := by
    induction subsets with
    | nil => simp
    | cons s subsets ih =>
      intro known
      rw [List.foldl_cons, ih, mem_map_name_addNew, List.map_cons, List.mem_cons, or_assoc]
  rw [withBase, hfold]
  simp [base]

end Subset

/-- A limiter is compiled for the base subset and for those that are known. -/
theorem mem_filters_compile (id : ResourceId) (spec : LimiterSpec) (m : Material)
    (subsets : List Subset) (selector : Labels) (config : CompileConfig) (n : String) :
    n ∈ (compile id spec m subsets selector config).filters ↔
      n = Subset.baseName ∨ n ∈ subsets.map (·.name) := by
  rw [Std.ExtTreeMap.mem_iff_isSome_getElem?, Option.isSome_iff_exists,
    ← Subset.mem_map_name_withBase, List.mem_map]
  simp only [getElem?_filters_compile]
  constructor
  · rintro ⟨_, s, hs, hn, -⟩
    exact ⟨s, hs, hn⟩
  · rintro ⟨s, hs, hn⟩
    exact ⟨_, s, hs, hn, rfl⟩

namespace Pass

/-- Whether a subset that had a filter written is to lose it. -/
def isStray (subsets : List Subset) (n : String) : Bool :=
  n != Subset.baseName && subsets.all (·.name != n)

/-- Each name that is kept gets an entry unless it has one. -/
theorem getElem?_foldl_insertIfNew (keep : String → Bool) (ns : List String)
    (m : Std.ExtTreeMap String (Option FilterSpec)) (n : String) (v : Option FilterSpec) :
    (ns.foldl (fun m n => if keep n then m.insertIfNew n none else m) m)[n]? = some v ↔
      m[n]? = some v ∨ m[n]? = none ∧ v = none ∧ n ∈ ns ∧ keep n = true := by
  induction ns generalizing m with
  | nil => simp
  | cons k ns ih =>
    rw [List.foldl_cons, ih]
    by_cases hk : keep k = true
    · rw [if_pos hk, Std.ExtTreeMap.getElem?_insertIfNew]
      by_cases hn : k = n
      · -- the name itself: an entry that is there already stays
        subst hn
        cases hm : m[k]? with
        | none =>
          have hfresh : ¬ k ∈ m := by simp [Std.ExtTreeMap.mem_iff_isSome_getElem?, hm]
          simp [hfresh, hk, eq_comm]
        | some x =>
          have hfound : k ∈ m := by simp [Std.ExtTreeMap.mem_iff_isSome_getElem?, hm]
          simp [hfound]
      · have hn' : ¬ (compare k n = .eq) := by simpa using hn
        simp [hn', Ne.symm hn]
    · have hkn : n = k → keep n = false := by
        rintro rfl
        simpa using hk
      rw [if_neg hk]
      simp only [List.mem_cons]
      constructor
      · rintro (h | ⟨h, hv, hns, hkeep⟩)
        · exact .inl h
        · exact .inr ⟨h, hv, .inr hns, hkeep⟩
      · rintro (h | ⟨h, hv, hn | hns, hkeep⟩)
        · exact .inl h
        · rw [hkn hn] at hkeep
          cases hkeep
        · exact .inr ⟨h, hv, hns, hkeep⟩

/-- What the filter of a subset is to be: as compiled, or gone if it was written for a subset that
is not known any more. -/
theorem mem_toList_desiredFilters (compiled : Std.ExtTreeMap String (Option FilterSpec))
    (subsets : List Subset) (written : SubsetNames) (n : String) (v : Option FilterSpec) :
    (n, v) ∈ (desiredFilters compiled subsets written).toList ↔ compiled[n]? = some v ∨
      compiled[n]? = none ∧ v = none ∧ n ∈ written ∧ isStray subsets n = true := by
  rw [Std.ExtTreeMap.mem_toList_iff_getElem?_eq_some, desiredFilters,
    Std.ExtTreeSet.foldl_eq_foldl_toList, ← Std.ExtTreeSet.mem_toList]
  exact getElem?_foldl_insertIfNew (isStray subsets) written.toList compiled n v

theorem nodup_toList_desiredFilters (compiled : Std.ExtTreeMap String (Option FilterSpec))
    (subsets : List Subset) (written : SubsetNames) :
    ((desiredFilters compiled subsets written).toList.map Prod.fst).Nodup := by
  rw [Std.ExtTreeMap.map_fst_toList_eq_keys]
  exact Std.ExtTreeMap.nodup_keys

/-- A subset that had a filter written is compiled for, or is to lose its filter. -/
theorem exists_mem_desiredFilters_of_written {id : ResourceId} {spec : LimiterSpec} {m : Material}
    {subsets : List Subset} {selector : Labels} {config : CompileConfig} {written : SubsetNames}
    {n : String} (h : n ∈ written) : ∃ v, (n, v) ∈
      (desiredFilters (compile id spec m subsets selector config).filters subsets
        written).toList := by
  cases hc : (compile id spec m subsets selector config).filters[n]? with
  | some v => exact ⟨v, (mem_toList_desiredFilters ..).2 (.inl hc)⟩
  | none =>
    -- then it is neither the base subset nor a known one, which is what makes it a stray
    have hnot : ¬ n ∈ (compile id spec m subsets selector config).filters := by
      simp [Std.ExtTreeMap.mem_iff_isSome_getElem?, hc]
    rw [mem_filters_compile, not_or] at hnot
    refine ⟨none, (mem_toList_desiredFilters ..).2 (.inr ⟨hc, rfl, h, ?_⟩)⟩
    unfold isStray
    simp only [Bool.and_eq_true, bne_iff_ne, List.all_eq_true]
    exact ⟨hnot.1, fun s hs hn => hnot.2 (List.mem_map.2 ⟨s, hs, hn⟩)⟩

end Pass

end MeshLimiter
