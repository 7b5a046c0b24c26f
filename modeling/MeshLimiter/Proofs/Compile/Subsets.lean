import Mathlib.Data.List.Nodup
import MeshLimiter.Proofs.Compile.Keys
/-!
# Subset by subset

What a limiter is compiled to is put together from what it comes to for each subset. Nothing that is
set for one subset, and nothing that is known of one, shows in the filter, the descriptors or the
shared entries of another.

* **`Subset.find?_withBase`**: the subset that a name stands for;
* **`getElem?_filters_eq`**, **`getElem?_inForce_eq_some_iff`**: the filter of a subset, and its
  descriptors in force;
* **`compileSubset_congr`**: what a subset comes to hangs on its own descriptors alone;
* **`compile_subsetwise`**: all of it together, for one compilation and for two that agree on a
  subset.
-/

namespace MeshLimiter

namespace Subset

variable {known subsets subsets' : List Subset} {s : Subset} {n : String}

theorem find?_addNew (known : List Subset) (s : Subset) (n : String) :
    (addNew known s).find? (·.name == n)
      = (known.find? (·.name == n)).or (if s.name == n then some s else none) := by
  unfold addNew
  split
  · next h =>
    obtain ⟨k, hk, hks⟩ := List.any_eq_true.1 h
    by_cases hn : s.name = n
    · -- then the one that is there already is found
      have hfound : (known.find? (·.name == n)).isSome = true :=
        List.find?_isSome.2 ⟨k, hk, by simpa [hn] using hks⟩
      obtain ⟨x, hx⟩ := Option.isSome_iff_exists.1 hfound
      rw [hx, Option.some_or]
    · rw [if_neg (by simpa using hn), Option.or_none]
  · rw [List.find?_append, List.find?_singleton]

/-- The subset that a name stands for: the base subset for its own name, else the first that is
listed. -/
theorem find?_withBase (subsets : List Subset) (n : String) :
    (withBase subsets).find? (·.name == n)
      = if n = baseName then some base else subsets.find? (·.name == n) := by
  have hfold : ∀ known : List Subset, (subsets.foldl addNew known).find? (·.name == n)
      = (known.find? (·.name == n)).or (subsets.find? (·.name == n)) := by
    induction subsets with
    | nil => exact fun _ => Option.or_none.symm
    | cons s subsets ih =>
      intro known
      rw [List.foldl_cons, ih, find?_addNew, Option.or_assoc, List.find?_cons]
      cases s.name == n <;> rfl
  rw [withBase, hfold, List.find?_singleton]
  by_cases hn : n = baseName
  · rw [if_pos hn, if_pos (by simp [hn, base]), Option.some_or]
  · rw [if_neg hn, if_neg (by simpa [base] using Ne.symm hn), Option.none_or]

/-- As no two of them have the same name, each is found by its name. -/
theorem find?_withBase_eq_some_iff :
    (withBase subsets).find? (·.name == n) = some s ↔ s ∈ withBase subsets ∧ s.name = n := by
  constructor
  · intro h
    exact ⟨List.mem_of_find?_eq_some h, by simpa using List.find?_some h⟩
  · rintro ⟨hs, rfl⟩
    obtain ⟨k, hk⟩ := Option.isSome_iff_exists.1
      (List.find?_isSome (p := (·.name == s.name)).2 ⟨s, hs, beq_self_eq_true _⟩)
    have hname : k.name = s.name := by simpa using List.find?_some hk
    rw [hk, List.inj_on_of_nodup_map (nodup_names_withBase subsets)
      (List.mem_of_find?_eq_some hk) hs hname]

/-- Two lists stand for the same subset by a name if the first of that name have the same labels.
The labels that are listed for the base subset do not matter. -/
theorem find?_withBase_congr (h : n = baseName ∨
    (subsets'.find? (·.name == n)).map (·.labels) = (subsets.find? (·.name == n)).map (·.labels)) :
    (withBase subsets').find? (·.name == n) = (withBase subsets).find? (·.name == n) := by
  rw [find?_withBase, find?_withBase]
  split
  · rfl
  · next hn =>
    have hlabels := h.resolve_left hn
    cases hs' : subsets'.find? (·.name == n) with
    | none =>
      rw [hs', Option.map_none, eq_comm, Option.map_eq_none_iff] at hlabels
      exact hlabels.symm
    | some s' =>
      rw [hs', Option.map_some, eq_comm, Option.map_eq_some_iff] at hlabels
      obtain ⟨s, hs, hlabels⟩ := hlabels
      have hname' : s'.name = n := by simpa using List.find?_some hs'
      have hname : s.name = n := by simpa using List.find?_some hs
      rw [hs]
      -- a subset is its name and its labels
      cases s
      cases s'
      cases hlabels
      cases hname'.trans hname.symm
      rfl

end Subset

/-- The entries that the rules of a subset bring to the registry. -/
def sharedIn (id : ResourceId) (spec : LimiterSpec) (m : Material) (n : String) :
    List GlobalDescriptor :=
  (rulesIn id spec m n).filterMap Rule.sharedEntry?

variable {id : ResourceId} {spec spec' : LimiterSpec} {m : Material}
  {subsets subsets' : List Subset}
  {selector : Labels} {config : CompileConfig} {n : String}

/-! ## One compilation

Each name stands for one subset, and what that comes to does not depend on the others. -/

/-- The filter of a name is what the subset it stands for comes to. -/
theorem getElem?_filters_eq : (compile id spec m subsets selector config).filters[n]?
    = ((Subset.withBase subsets).find? (·.name == n)).map fun s =>
        (compileSubset id spec m selector config s).map (·.filter) := by
  apply Option.ext
  intro v
  rw [getElem?_filters_compile, Option.map_eq_some_iff]
  simp only [Subset.find?_withBase_eq_some_iff, and_assoc, eq_comm (a := v)]

/-- A subset has a filter as soon as a descriptor is in force for it. -/
theorem isSome_iff_of_getElem?_filters {v : Option FilterSpec}
    (h : (compile id spec m subsets selector config).filters[n]? = some v) :
    v.isSome = true ↔ resolve m (spec.sets.getD n []) ≠ [] := by
  obtain ⟨s, -, rfl, rfl⟩ := getElem?_filters_compile.1 h
  rw [Option.isSome_map, compileSubset_eq]
  split
  · next hnone => simp [hnone]
  · next hsome => simp [hsome]

theorem getElem?_inForce_add (c : Compiled) (s : Subset) :
    (c.add s.name (compileSubset id spec m selector config s)).inForce[n]?
      = if s.name = n ∧ resolve m (spec.sets.getD n []) ≠ [] then
          some ((resolve m (spec.sets.getD n [])).map (·.descriptor))
        else c.inForce[n]? := by
  rw [compileSubset_eq]
  -- at the name of `s` its own rules decide, elsewhere nothing is put
  by_cases hn : s.name = n
  · subst hn
    by_cases hnone : resolve m (spec.sets.getD s.name []) = []
    · rw [if_pos hnone, if_neg (not_and_of_not_right _ (not_not_intro hnone))]
      rfl
    · rw [if_neg hnone, if_pos ⟨rfl, hnone⟩]
      simp [Compiled.add]
  · rw [if_neg (not_and_of_not_left _ hn)]
    by_cases hnone : resolve m (spec.sets.getD s.name []) = []
    · rw [if_pos hnone]
      rfl
    · rw [if_neg hnone]
      simp [Compiled.add, Std.ExtTreeMap.getElem?_insert, hn]

/-- **The descriptors in force of a subset** are those that hold for it; they are listed for the
subsets that are known, if there are any. -/
theorem getElem?_inForce_eq_some_iff {ds : List Descriptor} :
    (compile id spec m subsets selector config).inForce[n]? = some ds ↔
      n ∈ (compile id spec m subsets selector config).filters ∧
      resolve m (spec.sets.getD n []) ≠ [] ∧
        ds = (resolve m (spec.sets.getD n [])).map (·.descriptor) := by
  -- the descriptors hang on the name alone, so it does not matter which subset of a name comes last
  have hfold : ∀ (ss : List Subset) (c : Compiled),
      (ss.foldl (fun c s => c.add s.name (compileSubset id spec m selector config s)) c).inForce[n]?
        = if n ∈ ss.map (·.name) ∧ resolve m (spec.sets.getD n []) ≠ [] then
            some ((resolve m (spec.sets.getD n [])).map (·.descriptor))
          else c.inForce[n]? := by
    intro ss
    induction ss with
    | nil => exact fun c => (if_neg fun h => by cases h.1).symm
    | cons s ss ih =>
      intro c
      rw [List.foldl_cons, ih, getElem?_inForce_add]
      by_cases hnone : resolve m (spec.sets.getD n []) = []
      · simp [hnone]
      · by_cases hss : n ∈ ss.map (·.name)
        · simp [hnone, hss]
        · simp [hnone, hss, eq_comm (a := n)]
  rw [mem_filters_compile, ← Subset.mem_map_name_withBase, compile, hfold, ← and_assoc]
  split
  · next h =>
    rw [Option.some.injEq, and_iff_right h, eq_comm]
  · next h =>
    constructor
    · intro hds
      cases hds
    · exact fun hds => (h hds.1).elim

/-! ## Nothing is set

Then no subset has a rule. -/

theorem resolve_of_noSets (h : spec.sets.isEmpty = true) :
    resolve m (spec.sets.getD n []) = [] := by
  rw [Std.ExtTreeMap.isEmpty_iff.1 h, Std.ExtTreeMap.getD_empty]
  rfl

/-- A limiter that sets nothing is to have no filter for any subset. -/
theorem getElem?_filters_of_noSets (h : spec.sets.isEmpty = true) {v : Option FilterSpec} :
    (compile id spec m subsets selector config).filters[n]? = some v ↔
      v = none ∧ (n = Subset.baseName ∨ n ∈ subsets.map (·.name)) := by
  have hnone : ∀ {v}, (compile id spec m subsets selector config).filters[n]? = some v →
      v = none := by
    intro v hv
    cases v with
    | none => rfl
    | some f => exact absurd (resolve_of_noSets h) ((isSome_iff_of_getElem?_filters hv).1 rfl)
  rw [← mem_filters_compile id spec m subsets selector config,
    Std.ExtTreeMap.mem_iff_isSome_getElem?]
  constructor
  · intro hv
    exact ⟨hnone hv, by rw [hv]; rfl⟩
  · rintro ⟨rfl, hmem⟩
    obtain ⟨v, hv⟩ := Option.isSome_iff_exists.1 hmem
    rw [hv, hnone hv]

/-- It has no descriptor in force. -/
theorem inForce_of_noSets (h : spec.sets.isEmpty = true) :
    (compile id spec m subsets selector config).inForce = ∅ := by
  refine Std.ExtTreeMap.ext_getElem? fun n => ?_
  cases hds : (compile id spec m subsets selector config).inForce[n]? with
  | none => exact Std.ExtTreeMap.getElem?_empty.symm
  | some ds => exact absurd (resolve_of_noSets h) (getElem?_inForce_eq_some_iff.1 hds).2.1

/-- It brings no entry to the registry. -/
theorem shared_of_noSets (h : spec.sets.isEmpty = true) :
    (compile id spec m subsets selector config).shared = [] := by
  rw [shared_compile, List.flatMap_eq_nil_iff]
  intro s _
  rw [rulesIn_eq_nil_iff.2 (resolve_of_noSets h)]
  rfl

/-! ## Two compilations

What a subset comes to depends on its descriptors, its labels and the metrics. -/

theorem getD_sets_congr (h : spec'.sets[n]? = spec.sets[n]?) :
    spec'.sets.getD n [] = spec.sets.getD n [] := by
  rw [Std.ExtTreeMap.getD_eq_getD_getElem?, Std.ExtTreeMap.getD_eq_getD_getElem?, h]

theorem sharedIn_congr (h : spec'.sets[n]? = spec.sets[n]?) :
    sharedIn id spec' m n = sharedIn id spec m n := by
  rw [sharedIn, sharedIn, rulesIn, rulesIn, getD_sets_congr h]

/-- What a subset comes to hangs on its own descriptors alone. -/
theorem compileSubset_congr {s : Subset} (h : spec'.sets[s.name]? = spec.sets[s.name]?) :
    compileSubset id spec' m selector config s = compileSubset id spec m selector config s := by
  rw [compileSubset, compileSubset, getD_sets_congr h]

theorem getElem?_filters_congr (hset : spec'.sets[n]? = spec.sets[n]?)
    (hsubset : (Subset.withBase subsets').find? (·.name == n)
      = (Subset.withBase subsets).find? (·.name == n)) :
    (compile id spec' m subsets' selector config).filters[n]?
      = (compile id spec m subsets selector config).filters[n]? := by
  rw [getElem?_filters_eq, getElem?_filters_eq, hsubset]
  refine Option.map_congr fun s hs => ?_
  obtain ⟨-, rfl⟩ := Subset.find?_withBase_eq_some_iff.1 hs
  rw [compileSubset_congr hset]

theorem getElem?_inForce_congr (hset : spec'.sets[n]? = spec.sets[n]?)
    (hfilter : (compile id spec' m subsets' selector config).filters[n]?
      = (compile id spec m subsets selector config).filters[n]?) :
    (compile id spec' m subsets' selector config).inForce[n]?
      = (compile id spec m subsets selector config).inForce[n]? := by
  apply Option.ext
  intro ds
  rw [getElem?_inForce_eq_some_iff, getElem?_inForce_eq_some_iff, getD_sets_congr hset,
    Std.ExtTreeMap.mem_iff_isSome_getElem?, Std.ExtTreeMap.mem_iff_isSome_getElem?, hfilter]

/-- **A limiter is compiled subset by subset.** What is compiled has a filter, or the word that
there is to be none, for the base subset and for those that are known. A filter there is exactly if
a descriptor is in force, and exactly then the descriptors in force are listed. The shared entries
are those of the subsets, one after another. Whatever else is set, and whatever else is known: two
compilations that agree on what is set for a subset, and on the labels of the first of its name
unless it is the base subset, agree on its filter, its descriptors and its shared entries. -/
theorem compile_subsetwise (id : ResourceId) (spec : LimiterSpec) (m : Material)
    (subsets : List Subset) (selector : Labels) (config : CompileConfig) :
    let out := compile id spec m subsets selector config
    (∀ n, n ∈ out.filters ↔ n = Subset.baseName ∨ n ∈ subsets.map (·.name)) ∧
    (∀ n v, out.filters[n]? = some v → (v.isSome = true ↔ resolve m (spec.sets.getD n []) ≠ [])) ∧
    (∀ n ds, out.inForce[n]? = some ds ↔ (∃ f, out.filters[n]? = some (some f)) ∧
      ds = (resolve m (spec.sets.getD n [])).map (·.descriptor)) ∧
    (out.shared = (Subset.withBase subsets).flatMap fun s => sharedIn id spec m s.name) ∧
    ∀ (spec' : LimiterSpec) (subsets' : List Subset) (n : String), spec'.sets[n]? = spec.sets[n]? →
      (n = Subset.baseName ∨ (subsets'.find? (·.name == n)).map (·.labels)
        = (subsets.find? (·.name == n)).map (·.labels)) →
      let out' := compile id spec' m subsets' selector config
      out'.filters[n]? = out.filters[n]? ∧ out'.inForce[n]? = out.inForce[n]? ∧
        sharedIn id spec' m n = sharedIn id spec m n := by
  refine ⟨mem_filters_compile id spec m subsets selector config,
    fun n v h => isSome_iff_of_getElem?_filters h, fun n ds => ?_, shared_compile ..,
    fun spec' subsets' n hset hlabels => ?_⟩
  · rw [getElem?_inForce_eq_some_iff, ← and_assoc, and_congr_left_iff]
    rintro -
    constructor
    · rintro ⟨hmem, hsome⟩
      obtain ⟨v, hv⟩ := Option.isSome_iff_exists.1 (Std.ExtTreeMap.mem_iff_isSome_getElem?.1 hmem)
      obtain ⟨f, rfl⟩ := Option.isSome_iff_exists.1 ((isSome_iff_of_getElem?_filters hv).2 hsome)
      exact ⟨f, hv⟩
    · rintro ⟨f, hf⟩
      exact ⟨Std.ExtTreeMap.mem_iff_isSome_getElem?.2 (Option.isSome_iff_exists.2 ⟨_, hf⟩),
        (isSome_iff_of_getElem?_filters hf).1 rfl⟩
  · have hfilter : (compile id spec' m subsets' selector config).filters[n]?
        = (compile id spec m subsets selector config).filters[n]? :=
      getElem?_filters_congr hset (Subset.find?_withBase_congr hlabels)
    exact ⟨hfilter, getElem?_inForce_congr hset hfilter, sharedIn_congr hset⟩

/-- A shared limit for the first version of a service, beside a descriptor for the second. -/
def besideSpec (other : Descriptor) : LimiterSpec :=
  { sets := ((∅ : Std.ExtTreeMap String (List Descriptor)).insert "v1"
      [{ action := some { quota := "7", fillInterval := { seconds := 60 }, strategy := .shared }
        }]).insert "v2" [other] }

/-- A subset, picked by a label for its version. -/
def versionSubset (name label : String) : Subset :=
  { name, labels := (∅ : Labels).insert "version" label }

/-- The second version has a limit of its own in one compilation. In the other its quota does not
evaluate, it is not known at all, and the first version is listed once more with other labels. -/
theorem compile_subsetwise_faulty :
    let good := besideSpec { action := some { quota := "5", fillInterval := { seconds := 1 } } }
    let faulty :=
      besideSpec { action := some { quota := "5 / (", fillInterval := { seconds := 1 } } }
    let known := [versionSubset "v2" "2", versionSubset "v1" "1"]
    let repeated := [versionSubset "v1" "1", versionSubset "v1" "3"]
    let out := compile reviewsId good {} known ∅ {}
    let out' := compile reviewsId faulty {} repeated ∅ {}
    faulty.sets["v1"]? = good.sets["v1"]? ∧ out ≠ out' ∧
      (∃ f, out.filters["v1"]? = some (some f) ∧ out'.filters["v1"]? = some (some f)) ∧
      out'.inForce["v1"]? = out.inForce["v1"]? ∧
      (sharedIn reviewsId faulty {} "v1").length = 1 ∧
      sharedIn reviewsId faulty {} "v1" = sharedIn reviewsId good {} "v1" := by
  intro good faulty known repeated out out'
  have hset : faulty.sets["v1"]? = good.sets["v1"]? := by decide +kernel
  have hlabels : (repeated.find? (·.name == "v1")).map (·.labels)
      = (known.find? (·.name == "v1")).map (·.labels) := by decide +kernel
  have hv2 : ("v2" ∈ out.filters) ∧ ¬ "v2" ∈ out'.filters := by
    simp [out, out', mem_filters_compile, known, repeated, versionSubset, Subset.baseName]
  have hone : (sharedIn reviewsId faulty {} "v1").length = 1 := by decide +kernel
  obtain ⟨-, hfilter, hinForce, -, hsecond⟩ := compile_subsetwise reviewsId good {} known ∅ {}
  obtain ⟨hf, hds, hshared⟩ := hsecond faulty repeated "v1" hset (.inr hlabels)
  refine ⟨hset, fun heq => hv2.2 ?_, ?_, hds, hone, hshared⟩
  · rw [← heq]
    exact hv2.1
  · obtain ⟨ds, hds⟩ : ∃ ds, out.inForce["v1"]? = some ds :=
      Option.isSome_iff_exists.1 (by decide +kernel)
    obtain ⟨⟨f, hfound⟩, -⟩ := (hinForce "v1" ds).1 hds
    exact ⟨f, hfound, hf.trans hfound⟩

end MeshLimiter
