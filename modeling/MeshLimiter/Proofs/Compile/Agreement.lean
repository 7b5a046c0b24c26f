import MeshLimiter.Proofs.Compile.Grouping
/-!
# Actions, tables and the registry agree

A limit works only if the entry that a route gives to requests is the very entry that is counted, by
the proxy or by the shared service. Actions, tables and the registry are made in different ways, and
name the same entries.

* **`ConfigPatch.Grants`**, **`ConfigPatch.CountsFor`**: a patch gives requests an entry, and counts
  one;
* **`LaidOut.grants`**, **`LaidOut.countsFor`**, **`LaidOut.exists_rule`**: the patches for rules do
  so for their entries, and for no others;
* **`entries_agree`**: all that a limiter is compiled to agrees on the entries.
-/

namespace MeshLimiter

namespace ConfigPatch

/-- Some action of the patch gives requests an entry, and that alone. -/
def Grants (p : ConfigPatch) (e : DescriptorEntry) : Prop :=
  ∃ limit ∈ p.rateLimits, limit.mapM Json.granted? = some [e]

/-- The table of the patch counts an entry, and that alone. -/
def CountsFor (p : ConfigPatch) (e : DescriptorEntry) : Prop :=
  ∃ table, p.table? = some table ∧ ∃ c ∈ table, c.entries = [e]

end ConfigPatch

theorem Rule.localEntry_eq {r : Rule} (h : r.isCustom = false) : r.localEntry = r.entry := by
  unfold localEntry
  unfold isCustom at h
  split
  · next heq =>
    rw [heq] at h
    cases h
  · rfl

theorem Rule.mapM_granted? (r : Rule) :
    [r.routeAction.toJson.normal].mapM Json.granted? = some [r.entry] := by
  rw [List.mapM_cons, granted?_routeAction]
  rfl

namespace LaidOut

variable {rules : List Rule} {routed counting : List VirtualHost}
  {actions sharedFilter localFilter tables : List ConfigPatch} {r : Rule} {p : ConfigPatch}

/-- Requests for the hosts of a rule are given its entry. -/
theorem grants (h : LaidOut rules routed actions sharedFilter localFilter counting tables)
    (hr : r ∈ rules) (hcustom : r.isCustom = false) :
    ∃ p ∈ actions ++ sharedFilter ++ localFilter ++ tables, p.MergedAt r.vhost ∧
      p.Grants r.entry := by
  obtain ⟨p, hp, rs, hrs, hgives⟩ := h.exists_givesActions hr hcustom
  refine ⟨p, hp, hgives.merged, _, ?_, r.mapM_granted?⟩
  rw [hgives.rateLimits]
  exact List.mem_map.2 ⟨r, hrs, rfl⟩

/-- What is counted for the hosts of a rule is its entry. -/
theorem countsFor (h : LaidOut rules routed actions sharedFilter localFilter counting tables)
    (hr : r ∈ rules) (hcustom : r.isCustom = false) (hown : r.isShared = false) :
    ∃ p ∈ actions ++ sharedFilter ++ localFilter ++ tables, p.MergedAt r.vhost ∧
      p.CountsFor r.entry := by
  obtain ⟨p, hp, rs, hrs, hcounts⟩ := h.exists_counts hr hown
  refine ⟨p, hp, hcounts.merged, _, hcounts.table, _, List.mem_map.2 ⟨r, hrs, rfl⟩, ?_⟩
  rw [← Rule.localEntry_eq hcustom]
  rfl

/-- Every action is that of a rule, for the hosts of the rule. -/
theorem exists_rule (h : LaidOut rules routed actions sharedFilter localFilter counting tables)
    (hp : p ∈ actions ++ sharedFilter ++ localFilter ++ tables) {limit : List Json}
    (hlimit : limit ∈ p.rateLimits) : ∃ r ∈ rules, r.isCustom = false ∧ p.MergedAt r.vhost ∧
      limit = [r.routeAction.toJson.normal] := by
  have hnone : p.rateLimits = [] → False := fun hnil => by
    rw [hnil] at hlimit
    cases hlimit
  rcases h.cases hp with ⟨v, -, hgives⟩ | ⟨-, hinserts⟩ | ⟨-, hinserts⟩ | ⟨v, -, hcounts⟩
  · rw [hgives.rateLimits] at hlimit
    obtain ⟨r, hat, rfl⟩ := List.mem_map.1 hlimit
    obtain ⟨hkept, hv⟩ := List.mem_filter.1 hat
    obtain ⟨hr, hcustom⟩ := List.mem_filter.1 hkept
    obtain rfl := of_decide_eq_true hv
    exact ⟨r, hr, by simpa using hcustom, hgives.merged, rfl⟩
  · -- a filter that is inserted grants nothing, nor does a table
    exact (hnone hinserts.rateLimits).elim
  · exact (hnone hinserts.rateLimits).elim
  · exact (hnone hcounts.rateLimits).elim

end LaidOut

variable {id : ResourceId} {spec : LimiterSpec} {m : Material} {subsets : List Subset}
  {selector : Labels} {config : CompileConfig}

/-- The filter of a subset, laid out for its rules. -/
theorem exists_laidOut_of_filter {n : String} {f : FilterSpec}
    (h : (compile id spec m subsets selector config).filters[n]? = some (some f)) :
    ∃ routed actions sharedFilter localFilter counting tables,
      f.patches = actions ++ sharedFilter ++ localFilter ++ tables ∧
      LaidOut (rulesIn id spec m n) routed actions sharedFilter localFilter counting tables := by
  obtain ⟨s, -, -, -, rfl⟩ := getElem?_filters_some_iff.1 h
  exact laidOut_plan config _

theorem mem_shared {n : String} {f : FilterSpec} {r : Rule} {d : GlobalDescriptor}
    (h : (compile id spec m subsets selector config).filters[n]? = some (some f))
    (hr : r ∈ rulesIn id spec m n) (hd : r.sharedEntry? = some d) :
    d ∈ (compile id spec m subsets selector config).shared := by
  obtain ⟨s, hs, rfl, -, -⟩ := getElem?_filters_some_iff.1 h
  rw [shared_compile]
  exact List.mem_flatMap.2 ⟨s, hs, List.mem_filterMap.2 ⟨r, hr, hd⟩⟩

/-- **Actions, tables and the registry agree on the entries.** In the filter of a subset, each rule
that is not shared and has no entry of its own has an entry in a table for its hosts, and a patch
for the same place has an action that gives exactly this entry. The registry gets the entries of the
shared rules of all subsets, one after another, and for each that comes from a rule without an entry
of its own the filter of the subset has an action that gives it. And every action is that of a rule
whose entry is in a table for the same place, or in the registry, or which is shared with an
interval that is no unit. -/
theorem entries_agree (id : ResourceId) (spec : LimiterSpec) (m : Material) (subsets : List Subset)
    (selector : Labels) (config : CompileConfig) :
    let out := compile id spec m subsets selector config
    (∀ n f, out.filters[n]? = some (some f) → ∀ r ∈ rulesIn id spec m n, r.isCustom = false →
      r.isShared = false → ∃ table ∈ f.patches, table.MergedAt r.vhost ∧ table.CountsFor r.entry ∧
        ∃ routes ∈ f.patches, routes.place = table.place ∧ routes.Grants r.entry) ∧
    (out.shared = (Subset.withBase subsets).flatMap fun s =>
      (rulesIn id spec m s.name).filterMap Rule.sharedEntry?) ∧
    (∀ s ∈ Subset.withBase subsets, ∀ r ∈ rulesIn id spec m s.name, ∀ d, r.sharedEntry? = some d →
      r.isCustom = false → ∃ f, out.filters[s.name]? = some (some f) ∧ ∃ routes ∈ f.patches,
        routes.MergedAt r.vhost ∧ routes.Grants { key := d.key, value := d.value }) ∧
    (∀ n f, out.filters[n]? = some (some f) → ∀ routes ∈ f.patches, ∀ limit ∈ routes.rateLimits,
      ∃ r ∈ rulesIn id spec m n, routes.MergedAt r.vhost ∧
        limit.mapM Json.granted? = some [r.entry] ∧
        ((∃ table ∈ f.patches, table.place = routes.place ∧ table.CountsFor r.entry) ∨
          (∃ d ∈ out.shared, d.key = r.entry.key ∧ d.value = r.entry.value) ∨
          (r.isShared = true ∧ RateUnit.ofInterval? r.action.fillInterval = none))) := by
  refine ⟨fun n f hf r hr hcustom hown => ?_, shared_compile .., fun s hs r hr d hd hcustom => ?_,
    fun n f hf routes hroutes limit hlimit => ?_⟩
  · obtain ⟨_, _, _, _, _, _, hpatches, hlaid⟩ := exists_laidOut_of_filter hf
    obtain ⟨table, htable, hat, hcounts⟩ := hlaid.countsFor hr hcustom hown
    obtain ⟨routes, hroutes, hat', hgrants⟩ := hlaid.grants hr hcustom
    rw [hpatches]
    exact ⟨table, htable, hat, hcounts, routes, hroutes, hat'.place.trans hat.place.symm, hgrants⟩
  · obtain ⟨-, unit, -, rfl⟩ := Rule.sharedEntry?_eq_some_iff.1 hd
    refine ⟨_, getElem?_filters_some_iff.2 ⟨s, hs, rfl, List.ne_nil_of_mem hr, rfl⟩, ?_⟩
    obtain ⟨_, _, _, _, _, _, hpatches, hlaid⟩ := laidOut_plan config (rulesIn id spec m s.name)
    obtain ⟨routes, hroutes, hat, hgrants⟩ := hlaid.grants hr hcustom
    exact ⟨routes, hpatches ▸ hroutes, hat, hgrants⟩
  · obtain ⟨_, _, _, _, _, _, hpatches, hlaid⟩ := exists_laidOut_of_filter hf
    rw [hpatches] at hroutes ⊢
    obtain ⟨r, hr, hcustom, hat, rfl⟩ := hlaid.exists_rule hroutes hlimit
    refine ⟨r, hr, hat, r.mapM_granted?, ?_⟩
    -- where the entry is counted depends on the strategy of the rule alone
    cases hshared : r.isShared with
    | false =>
      obtain ⟨table, htable, hat', hcounts⟩ := hlaid.countsFor hr hcustom hshared
      exact .inl ⟨table, htable, hat'.place.trans hat.place.symm, hcounts⟩
    | true =>
      cases hunit : RateUnit.ofInterval? r.action.fillInterval with
      | none => exact .inr (.inr ⟨rfl, rfl⟩)
      | some unit =>
        have hd : r.sharedEntry? = some _ :=
          Rule.sharedEntry?_eq_some_iff.2 ⟨hshared, unit, hunit, rfl⟩
        exact .inr (.inl ⟨_, mem_shared hf hr hd, rfl, rfl⟩)

/-- Rules of all kinds: one has its entry in a table beside an action that gives it, and one is in
the registry with an action, which belongs to a rule. -/
theorem entries_agree_mixed : ∃ f,
    (compile reviewsId mixedSpec {} [] ∅ {}).filters[Subset.baseName]? = some (some f) ∧
    (∃ r ∈ rulesIn reviewsId mixedSpec {} Subset.baseName, r.isCustom = false ∧ r.isShared = false ∧
      ∃ table ∈ f.patches, table.MergedAt r.vhost ∧ table.CountsFor r.entry ∧
        ∃ routes ∈ f.patches, routes.place = table.place ∧ routes.Grants r.entry) ∧
    (∃ r ∈ rulesIn reviewsId mixedSpec {} Subset.baseName, ∃ d, r.sharedEntry? = some d ∧
      r.isCustom = false ∧ ∃ routes ∈ f.patches, routes.MergedAt r.vhost ∧
        routes.Grants { key := d.key, value := d.value }) ∧
    (∃ routes ∈ f.patches, ∃ limit ∈ routes.rateLimits,
      ∃ r ∈ rulesIn reviewsId mixedSpec {} Subset.baseName, routes.MergedAt r.vhost ∧
        limit.mapM Json.granted? = some [r.entry]) := by
  obtain ⟨hown, -, hshared, hactions⟩ := entries_agree reviewsId mixedSpec {} [] ∅ {}
  have hrules : (rulesIn reviewsId mixedSpec {} Subset.baseName).any
        (fun r => !r.isCustom && !r.isShared) = true ∧
      (rulesIn reviewsId mixedSpec {} Subset.baseName).any
        (fun r => !r.isCustom && r.sharedEntry?.isSome) = true := by
    decide +kernel
  obtain ⟨r, hr, hrule⟩ := List.any_eq_true.1 hrules.1
  obtain ⟨r', hr', hrule'⟩ := List.any_eq_true.1 hrules.2
  simp only [Bool.and_eq_true, Bool.not_eq_true', Option.isSome_iff_exists] at hrule hrule'
  obtain ⟨d, hd⟩ := hrule'.2
  obtain ⟨f, hf, hroutes⟩ := hshared Subset.base List.mem_cons_self r' hr' d hd hrule'.1
  refine ⟨f, hf, ⟨r, hr, hrule.1, hrule.2, hown _ f hf r hr hrule.1 hrule.2⟩,
    ⟨r', hr', d, hd, hrule'.1, hroutes⟩, ?_⟩
  obtain ⟨routes, hmem, -, limit, hlimit, -⟩ := hroutes
  obtain ⟨r, hr, hat, hgranted, -⟩ := hactions _ f hf routes hmem limit hlimit
  exact ⟨routes, hmem, limit, hlimit, r, hr, hat, hgranted⟩

end MeshLimiter
