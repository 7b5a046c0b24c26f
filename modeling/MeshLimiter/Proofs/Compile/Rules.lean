import MeshLimiter.Compile
/-!
# The rules that a limiter is compiled from

For each subset the descriptors in force become rules, one each and in order. What a limiter is
compiled to is put together subset by subset.

* **`Descriptor.resolve?_eq_some_iff`**: which descriptors are in force, and what becomes of them;
* **`rulesIn`**: the rules in force for a subset;
* **`map_resolved_rulesIn`**: there is one for every descriptor in force;
* **`getElem?_filters_compile`**: the filter of a subset is what the subset is compiled to;
* **`shared_compile`**: the shared entries are those of the rules of all subsets.
-/

namespace MeshLimiter

/-- The rules in force for a subset. -/
def rulesIn (id : ResourceId) (spec : LimiterSpec) (m : Material) (n : String) : List Rule :=
  (resolve m (spec.sets.getD n [])).filterMap (Rule.ofResolved? id)

/-- The descriptor in force that a rule is for, with its quota. -/
def Rule.resolved (r : Rule) : Resolved :=
  { descriptor := r.descriptor, quota := r.quota }

/-- The entry that a rule brings to the registry, if it is shared and its interval is a unit. -/
def Rule.sharedEntry? (r : Rule) : Option GlobalDescriptor :=
  if r.isShared then r.globalDescriptor? else none

variable {id : ResourceId} {spec : LimiterSpec} {m : Material} {subsets : List Subset}
  {selector : Labels} {config : CompileConfig} {n : String}

/-! ## From descriptors to rules

A descriptor whose condition holds and whose quota can be found becomes a rule. -/

/-- **Which descriptors are in force**, and what becomes of them. -/
theorem Descriptor.resolve?_eq_some_iff {d : Descriptor} {x : Resolved} : d.resolve? m = some x ↔
    ∃ action, Template.condition d.condition m = .ok true ∧ d.action = some action ∧
      Template.quota action.quota m = .ok x.quota ∧ x.descriptor = d.withQuota x.quota := by
  unfold Descriptor.resolve?
  constructor
  · intro h
    split at h
    · next action hcondition haction =>
      split at h
      · next quota hquota =>
        obtain rfl := Option.some.inj h
        exact ⟨action, hcondition, haction, hquota, rfl⟩
      · cases h
    · cases h
  · rintro ⟨action, hcondition, haction, hquota, hdescriptor⟩
    rw [hcondition, haction]
    simp only [hquota]
    rw [← hdescriptor]

/-- A descriptor in force has an action, and so becomes a rule. -/
theorem Rule.exists_ofResolved? {ds : List Descriptor} {x : Resolved} (h : x ∈ resolve m ds) :
    ∃ r, ofResolved? id x = some r ∧ r.resolved = x := by
  obtain ⟨d, -, hd⟩ := List.mem_filterMap.1 h
  obtain ⟨action, -, haction, -, hdescriptor⟩ := Descriptor.resolve?_eq_some_iff.1 hd
  have hwritten : x.descriptor.action
      = some { action with quota := Decimal.natText x.quota.toNat } := by
    rw [hdescriptor, Descriptor.withQuota, haction, Option.map_some]
  exact ⟨_, by rw [ofResolved?, hwritten]; rfl, rfl⟩

/-- **No descriptor in force is lost, and none is repeated.** -/
theorem map_resolved_rulesIn (id : ResourceId) (spec : LimiterSpec) (m : Material) (n : String) :
    (rulesIn id spec m n).map Rule.resolved = resolve m (spec.sets.getD n []) := by
  have hall : ∀ xs : List Resolved, (∀ x ∈ xs, ∃ r, Rule.ofResolved? id x = some r ∧
      r.resolved = x) → (xs.filterMap (Rule.ofResolved? id)).map Rule.resolved = xs := by
    intro xs
    induction xs with
    | nil => exact fun _ => rfl
    | cons x xs ih =>
      intro h
      obtain ⟨r, hr, hresolved⟩ := h x List.mem_cons_self
      rw [List.filterMap_cons_some hr, List.map_cons, hresolved,
        ih fun y hy => h y (List.mem_cons_of_mem _ hy)]
  exact hall _ fun x hx => Rule.exists_ofResolved? hx

theorem rulesIn_eq_nil_iff : rulesIn id spec m n = [] ↔ resolve m (spec.sets.getD n []) = [] := by
  rw [← List.map_eq_nil_iff (f := Rule.resolved), map_resolved_rulesIn]

/-- The value of a rule is that of its descriptor. -/
theorem value_of_mem_rulesIn {r : Rule} (h : r ∈ rulesIn id spec m n) :
    r.value = descriptorValue id r.descriptor := by
  obtain ⟨x, -, hx⟩ := List.mem_filterMap.1 h
  obtain ⟨action, -, rfl⟩ := Option.map_eq_some_iff.1 hx
  rfl

/-- So are the hosts it is for. -/
theorem vhost_of_mem_rulesIn {r : Rule} (h : r ∈ rulesIn id spec m n) :
    r.vhost = .ofTarget r.descriptor.target := by
  obtain ⟨x, -, hx⟩ := List.mem_filterMap.1 h
  obtain ⟨action, -, rfl⟩ := Option.map_eq_some_iff.1 hx
  rfl

theorem Rule.sharedEntry?_eq_some_iff {r : Rule} {d : GlobalDescriptor} :
    r.sharedEntry? = some d ↔ r.isShared = true ∧ ∃ unit,
      RateUnit.ofInterval? r.action.fillInterval = some unit ∧
      d =
        { key := r.entryKey, value := r.value,
          rateLimit := { requestsPerUnit := r.quota, unit } } := by
  unfold sharedEntry? globalDescriptor?
  split
  · next h => simp [h, eq_comm (a := d)]
  · next h => simp [h]

theorem globalEntries_eq (rules : List Rule) :
    globalEntries rules = rules.filterMap Rule.sharedEntry? := by
  rw [globalEntries, List.filterMap_filter]
  rfl

/-! ## From rules to what is compiled

A rule that is shared brings an entry, and any rule brings patches. -/

/-- A subset is compiled as soon as a descriptor is in force. -/
theorem compileSubset_eq (s : Subset) : compileSubset id spec m selector config s
    = if resolve m (spec.sets.getD s.name []) = [] then none
      else some
        { filter :=
            { workload := some (workloadOf selector s)
              patches := (plan config (rulesIn id spec m s.name)).map PlannedPatch.toConfigPatch }
          inForce := (resolve m (spec.sets.getD s.name [])).map (·.descriptor)
          shared := (rulesIn id spec m s.name).filterMap Rule.sharedEntry? } := by
  rw [← globalEntries_eq]
  unfold compileSubset
  simp only [List.isEmpty_iff]
  rfl

theorem shared_add (c : Compiled) (name : String) (x : Option CompiledSubset) :
    (c.add name x).shared = c.shared ++ (x.map (·.shared)).getD [] := by
  cases x with
  | none => exact (List.append_nil _).symm
  | some x => rfl

theorem shared_compileSubset (s : Subset) :
    ((compileSubset id spec m selector config s).map (·.shared)).getD []
      = (rulesIn id spec m s.name).filterMap Rule.sharedEntry? := by
  rw [compileSubset_eq]
  split
  · next h => rw [rulesIn_eq_nil_iff.2 h]; rfl
  · rfl

/-- **The shared entries of a limiter** are those of the rules of its subsets, one after another. -/
theorem shared_compile (id : ResourceId) (spec : LimiterSpec) (m : Material) (subsets : List Subset)
    (selector : Labels) (config : CompileConfig) :
    (compile id spec m subsets selector config).shared = (Subset.withBase subsets).flatMap fun s =>
      (rulesIn id spec m s.name).filterMap Rule.sharedEntry? := by
  have hfold : ∀ (ss : List Subset) (c : Compiled),
      (ss.foldl (fun c s => c.add s.name (compileSubset id spec m selector config s)) c).shared
        = c.shared ++ ss.flatMap fun s => (rulesIn id spec m s.name).filterMap
          Rule.sharedEntry? := by
    intro ss
    induction ss with
    | nil => exact fun c => (List.append_nil _).symm
    | cons s ss ih =>
      intro c
      rw [List.foldl_cons, ih, shared_add, shared_compileSubset, List.flatMap_cons,
        List.append_assoc]
  exact hfold _ _

/-! ## Every subset is compiled once

The base subset stands first, and of several with one name only the first counts. -/

namespace Subset

theorem nodup_names_addNew {known : List Subset} (h : (known.map (·.name)).Nodup) (s : Subset) :
    ((addNew known s).map (·.name)).Nodup := by
  unfold addNew
  split
  · exact h
  · next hnew =>
    rw [List.map_append, List.nodup_append]
    refine ⟨h, by simp, ?_⟩
    rintro n hn _ hs rfl
    obtain ⟨k, hk, hks⟩ := List.mem_map.1 hn
    refine hnew (List.any_eq_true.2 ⟨k, hk, ?_⟩)
    rw [hks, List.mem_singleton.1 hs]
    exact beq_self_eq_true _

/-- No two subsets have the same name. -/
theorem nodup_names_withBase (subsets : List Subset) :
    ((withBase subsets).map (·.name)).Nodup := by
  have hfold : ∀ (ss known : List Subset), (known.map (·.name)).Nodup →
      ((ss.foldl addNew known).map (·.name)).Nodup := by
    intro ss
    induction ss with
    | nil => exact fun _ h => h
    | cons s ss ih => exact fun _ h => ih _ (nodup_names_addNew h s)
  exact hfold _ _ (by simp)

end Subset

theorem getElem?_filters_add (c : Compiled) (name : String) (x : Option CompiledSubset) :
    (c.add name x).filters[n]? = if name = n then some (x.map (·.filter)) else c.filters[n]? := by
  cases x <;> simp [Compiled.add, Std.ExtTreeMap.getElem?_insert]

/-- **The filter of a subset** is what the subset is compiled to. -/
theorem getElem?_filters_compile {v : Option FilterSpec} :
    (compile id spec m subsets selector config).filters[n]? = some v ↔
      ∃ s ∈ Subset.withBase subsets, s.name = n ∧
        v = (compileSubset id spec m selector config s).map (·.filter) := by
  have hfold : ∀ (ss : List Subset) (c : Compiled), (ss.map (·.name)).Nodup →
      ((ss.foldl (fun c s => c.add s.name (compileSubset id spec m selector config s))
        c).filters[n]? = some v ↔ (∃ s ∈ ss, s.name = n ∧
            v = (compileSubset id spec m selector config s).map (·.filter)) ∨
          n ∉ ss.map (·.name) ∧ c.filters[n]? = some v) := by
    intro ss
    induction ss with
    | nil => simp
    | cons s ss ih =>
      intro c hnodup
      obtain ⟨hs, hss⟩ := List.nodup_cons.1 (List.map_cons ▸ hnodup)
      rw [List.foldl_cons, ih _ hss, getElem?_filters_add]
      by_cases hn : s.name = n
      · -- its name is not among those to come
        subst hn
        simp only [if_pos, List.map_cons, List.mem_cons, exists_eq_or_imp, not_true_eq_false,
          false_and, or_false, hs, not_false_eq_true, true_and, Option.some.injEq]
        rw [or_comm, eq_comm]
      · simp [hn, Ne.symm hn]
  rw [compile, hfold _ _ (Subset.nodup_names_withBase subsets)]
  simp

/-- A subset with a rule in force has a filter, with the patches that are planned. -/
theorem getElem?_filters_some_iff {f : FilterSpec} :
    (compile id spec m subsets selector config).filters[n]? = some (some f) ↔
      ∃ s ∈ Subset.withBase subsets, s.name = n ∧ rulesIn id spec m n ≠ [] ∧
        f = { workload := some (workloadOf selector s)
              patches := (plan config (rulesIn id spec m n)).map PlannedPatch.toConfigPatch } := by
  rw [getElem?_filters_compile]
  refine exists_congr fun s => and_congr_right fun _ => and_congr_right ?_
  rintro rfl
  rw [compileSubset_eq]
  split
  · next h => simp [rulesIn_eq_nil_iff.2 h]
  · next h => simp [rulesIn_eq_nil_iff, h]

/-- The service of the samples. -/
def reviewsId : ResourceId := { ns := "default", name := "reviews" }

end MeshLimiter
