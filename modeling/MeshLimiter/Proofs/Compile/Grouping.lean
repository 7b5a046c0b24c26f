import MeshLimiter.Proofs.Compile.Patches
import MeshLimiter.Proofs.Compile.Rules
/-!
# From rules to patches

The rules of a subset become patches in two ways: those that are not custom as actions of routes,
and those that are not shared as entries of tables. Each time they are taken apart by the hosts that
they are for.

* **`HostsOf`**: the hosts of rules, each once and in order;
* **`exists_groupByHost`**: every rule goes to its host once, and the rules of a host stay in order;
* **`patches_compileSubset`**: the patches of a subset neither lose nor repeat a rule.
-/

namespace MeshLimiter

/-- The hosts of rules, each once and in order. -/
structure HostsOf (rules : List Rule) (hosts : List VirtualHost) : Prop where
  ordered : hosts.Pairwise fun v w => compare v w = .lt
  mem_iff : ∀ v, v ∈ hosts ↔ ∃ r ∈ rules, r.vhost = v

/-- The rules for a host. -/
def atHost (rules : List Rule) (v : VirtualHost) : List Rule :=
  rules.filter (·.vhost = v)

/-- The rules are put behind those that their hosts have already. -/
theorem getD_foldl_insert (rules : List Rule) (groups : Std.ExtTreeMap VirtualHost (List Rule))
    (v : VirtualHost) :
    (rules.foldl (fun acc r => acc.insert r.vhost (acc.getD r.vhost [] ++ [r])) groups).getD v []
      = groups.getD v [] ++ atHost rules v := by
  induction rules generalizing groups with
  | nil => exact (List.append_nil _).symm
  | cons r rules ih =>
    rw [List.foldl_cons, ih, Std.ExtTreeMap.getD_insert, atHost, atHost, List.filter_cons]
    by_cases h : r.vhost = v
    · subst h
      simp
    · simp [h]

theorem mem_foldl_insert (rules : List Rule) (groups : Std.ExtTreeMap VirtualHost (List Rule))
    (v : VirtualHost) :
    v ∈ rules.foldl (fun acc r => acc.insert r.vhost (acc.getD r.vhost [] ++ [r])) groups ↔
      v ∈ groups ∨ ∃ r ∈ rules, r.vhost = v := by
  induction rules generalizing groups with
  | nil => simp
  | cons r rules ih =>
    rw [List.foldl_cons, ih, Std.ExtTreeMap.mem_insert, Std.LawfulEqCmp.compare_eq_iff_eq,
      or_comm (a := r.vhost = v), or_assoc]
    simp only [List.mem_cons, exists_eq_or_imp]

/-- **Every rule goes to its host once**, and the rules of a host stay in order. -/
theorem exists_groupByHost (rules : List Rule) : ∃ hosts, HostsOf rules hosts ∧
    groupByHost rules = hosts.map fun v => (v, atHost rules v) := by
  refine ⟨(groupByHost rules).map Prod.fst, ⟨?_, fun v => ?_⟩, ?_⟩
  · rw [groupByHost, Std.ExtTreeMap.map_fst_toList_eq_keys]
    exact Std.ExtTreeMap.ordered_keys
  · rw [groupByHost, Std.ExtTreeMap.map_fst_toList_eq_keys, Std.ExtTreeMap.mem_keys,
      mem_foldl_insert]
    simp
  · -- the list that a key comes with is what was put there, which is the rules for that host
    rw [List.map_map]
    refine (List.map_id _).symm.trans (List.map_congr_left fun ⟨v, rs⟩ hmem => ?_)
    have hrs := Std.ExtTreeMap.mem_toList_iff_getElem?_eq_some.1 hmem
    have hget := getD_foldl_insert rules ∅ v
    rw [Std.ExtTreeMap.getD_eq_getD_getElem?, hrs, Std.ExtTreeMap.getD_empty,
      List.nil_append] at hget
    exact congrArg (Prod.mk v) hget

theorem exists_left_of_forall₂ {α β : Type} {R : α → β → Prop} {as : List α} {bs : List β} {b : β}
    (h : List.Forall₂ R as bs) (hb : b ∈ bs) : ∃ a ∈ as, R a b := by
  induction h with
  | nil => cases hb
  | cons hab _ ih =>
    rcases List.mem_cons.1 hb with rfl | hb
    · exact ⟨_, List.mem_cons_self, hab⟩
    · obtain ⟨a, ha, hR⟩ := ih hb
      exact ⟨a, List.mem_cons_of_mem _ ha, hR⟩

theorem exists_right_of_forall₂ {α β : Type} {R : α → β → Prop} {as : List α} {bs : List β} {a : α}
    (h : List.Forall₂ R as bs) (ha : a ∈ as) : ∃ b ∈ bs, R a b := by
  induction h with
  | nil => cases ha
  | cons hab _ ih =>
    rcases List.mem_cons.1 ha with rfl | ha
    · exact ⟨_, List.mem_cons_self, hab⟩
    · obtain ⟨b, hb, hR⟩ := ih ha
      exact ⟨b, List.mem_cons_of_mem _ hb, hR⟩

/-- The patches for grouped rules stand one for each host. -/
theorem forall₂_groupByHost {P : VirtualHost → List Rule → ConfigPatch → Prop}
    (patch : VirtualHost × List Rule → ConfigPatch) (hpatch : ∀ v rs, P v rs (patch (v, rs)))
    (rules : List Rule) : ∃ hosts, HostsOf rules hosts ∧
      List.Forall₂ (fun v p => P v (atHost rules v) p) hosts ((groupByHost rules).map patch) := by
  obtain ⟨hosts, hhosts, hgroups⟩ := exists_groupByHost rules
  refine ⟨hosts, hhosts, ?_⟩
  rw [hgroups, List.map_map]
  clear hhosts hgroups
  induction hosts with
  | nil => exact .nil
  | cons v hosts ih => exact .cons (hpatch v _) ih

/-! ## The patches of a subset

They are laid out in groups: what is inserted, and then what routes and virtual hosts are given. -/

/-- A filter is inserted once or not at all. -/
def InsertsIf (needed : Bool) (name : String) (patches : List ConfigPatch) : Prop :=
  if needed then ∃ p, patches = [p] ∧ Inserts name p else patches = []

theorem InsertsIf.of_mem {needed : Bool} {name : String} {patches : List ConfigPatch}
    {p : ConfigPatch}
    (h : InsertsIf needed name patches) (hp : p ∈ patches) : needed = true ∧ Inserts name p := by
  unfold InsertsIf at h
  split at h
  · next hneeded =>
    obtain ⟨q, rfl, hq⟩ := h
    obtain rfl := List.mem_singleton.1 hp
    exact ⟨hneeded, hq⟩
  · rw [h] at hp
    cases hp

/-- The four parts of the patches for rules: actions for the hosts of the rules that are not custom,
the filter that asks the shared service, the filter that counts in the proxy, and tables for the
hosts of the rules that are not shared. -/
structure LaidOut (rules : List Rule) (routed : List VirtualHost)
    (actions sharedFilter localFilter : List ConfigPatch) (counting : List VirtualHost)
    (tables : List ConfigPatch) : Prop where
  routedHosts : HostsOf (rules.filter (!·.isCustom)) routed
  actions : List.Forall₂ (fun v => GivesActions v (atHost (rules.filter (!·.isCustom)) v))
    routed actions
  sharedFilter : InsertsIf (rules.any (·.isShared)) Fragment.sharedFilterName sharedFilter
  localFilter : InsertsIf (rules.any (!·.isShared)) Fragment.localFilterName localFilter
  countingHosts : HostsOf (rules.filter (!·.isShared)) counting
  tables : List.Forall₂ (fun v => Counts v (atHost (rules.filter (!·.isShared)) v)) counting tables

theorem insertsIf {rs : List Rule} {needed : Bool} {name : String} {p : PlannedPatch}
    (hrs : rs.isEmpty = !needed) (hp : Inserts name p.toConfigPatch) :
    InsertsIf needed name ((if rs.isEmpty then [] else [p]).map PlannedPatch.toConfigPatch) := by
  cases needed with
  | true => rw [InsertsIf, if_pos rfl, hrs]; exact ⟨_, rfl, hp⟩
  | false => rw [InsertsIf, if_neg nofun, hrs]; rfl

theorem isEmpty_filter (rules : List Rule) (q : Rule → Bool) :
    (rules.filter q).isEmpty = !rules.any q := by
  rw [Bool.eq_iff_iff]
  simp

/-- The patches of a plan are laid out in this way. -/
theorem laidOut_plan (config : CompileConfig) (rules : List Rule) :
    ∃ routed actions sharedFilter localFilter counting tables,
      (plan config rules).map PlannedPatch.toConfigPatch
        = actions ++ sharedFilter ++ localFilter ++ tables ∧
      LaidOut rules routed actions sharedFilter localFilter counting tables := by
  obtain ⟨routed, hrouted, hactions⟩ := forall₂_groupByHost
    (fun g => PlannedPatch.toConfigPatch
      { site := .routes g.1, fragment := .routeActions (g.2.map Rule.routeAction) })
    givesActions_toConfigPatch (rules.filter (!·.isCustom))
  obtain ⟨counting, hcounting, htables⟩ := forall₂_groupByHost
    (fun g => PlannedPatch.toConfigPatch
      { site := .routes g.1, fragment := .localTable (g.2.map Rule.localDescriptor) })
    counts_toConfigPatch (rules.filter (!·.isShared))
  refine ⟨routed, _, _, _, counting, _, ?_,
    { routedHosts := hrouted
      actions := hactions
      sharedFilter := insertsIf (isEmpty_filter rules _) (inserts_sharedFilter config.domain
        (sharedCluster config (rules.filter (·.isShared))))
      localFilter := insertsIf (isEmpty_filter rules _) inserts_localFilter
      countingHosts := hcounting
      tables := htables }⟩
  simp only [plan, List.map_append, List.map_map]
  rfl

namespace LaidOut

variable {rules : List Rule} {routed counting : List VirtualHost}
  {actions sharedFilter localFilter tables : List ConfigPatch} {p : ConfigPatch}

/-- What a patch of each part is there for. -/
theorem cases (h : LaidOut rules routed actions sharedFilter localFilter counting tables)
    (hp : p ∈ actions ++ sharedFilter ++ localFilter ++ tables) :
    (∃ v ∈ routed, GivesActions v (atHost (rules.filter (!·.isCustom)) v) p) ∨
      (rules.any (·.isShared) = true ∧ Inserts Fragment.sharedFilterName p) ∨
      (rules.any (!·.isShared) = true ∧ Inserts Fragment.localFilterName p) ∨
      ∃ v ∈ counting, Counts v (atHost (rules.filter (!·.isShared)) v) p := by
  simp only [List.mem_append] at hp
  rcases hp with ((hp | hp) | hp) | hp
  · exact .inl (exists_left_of_forall₂ h.actions hp)
  · exact .inr (.inl (h.sharedFilter.of_mem hp))
  · exact .inr (.inr (.inl (h.localFilter.of_mem hp)))
  · exact .inr (.inr (.inr (exists_left_of_forall₂ h.tables hp)))

/-- A rule that is not custom has its action in a patch for its hosts. -/
theorem exists_givesActions {r : Rule} (hr : r ∈ rules) (hcustom : r.isCustom = false)
    (h : LaidOut rules routed actions sharedFilter localFilter counting tables) :
    ∃ p ∈ actions ++ sharedFilter ++ localFilter ++ tables, ∃ rs, r ∈ rs ∧
      GivesActions r.vhost rs p := by
  have hkept : r ∈ rules.filter (!·.isCustom) := List.mem_filter.2 ⟨hr, by rw [hcustom]; rfl⟩
  obtain ⟨p, hp, hgives⟩ :=
    exists_right_of_forall₂ h.actions ((h.routedHosts.mem_iff _).2 ⟨r, hkept, rfl⟩)
  exact ⟨p, by simp [hp], _, List.mem_filter.2 ⟨hkept, decide_eq_true rfl⟩, hgives⟩

/-- A rule that is not shared has its entry in a table for its hosts. -/
theorem exists_counts {r : Rule} (hr : r ∈ rules) (hown : r.isShared = false)
    (h : LaidOut rules routed actions sharedFilter localFilter counting tables) :
    ∃ p ∈ actions ++ sharedFilter ++ localFilter ++ tables, ∃ rs, r ∈ rs ∧ Counts r.vhost rs p := by
  have hkept : r ∈ rules.filter (!·.isShared) := List.mem_filter.2 ⟨hr, by rw [hown]; rfl⟩
  obtain ⟨p, hp, hcounts⟩ :=
    exists_right_of_forall₂ h.tables ((h.countingHosts.mem_iff _).2 ⟨r, hkept, rfl⟩)
  exact ⟨p, by simp [hp], _, List.mem_filter.2 ⟨hkept, decide_eq_true rfl⟩, hcounts⟩

end LaidOut

/-- What is merged into routes inserts no filter. -/
theorem ConfigPatch.MergedAt.inserted? {p : ConfigPatch} {v : VirtualHost} (h : p.MergedAt v) :
    p.inserted? = none := by
  rw [ConfigPatch.inserted?, h.operation]
  rfl

/-- **The patches of a subset neither lose nor repeat a rule.** As soon as a descriptor is in force
for a subset, each such descriptor is one rule, with the quota that was evaluated. The patches are
then these: for each host of the rules that are not custom, in order, one with the actions of just
those rules; one that inserts the filter for the shared service exactly if some rule is shared; one
that inserts the filter that counts in the proxy exactly if some rule is not; and for each host of
those, in order, one with a table of just these rules. So there is no filter for what no rule asks
for. -/
theorem patches_compileSubset (id : ResourceId) (spec : LimiterSpec) (m : Material)
    (selector : Labels)
    (config : CompileConfig) (s : Subset) (hforce : resolve m (spec.sets.getD s.name []) ≠ []) :
    let rules := rulesIn id spec m s.name
    ∃ x, compileSubset id spec m selector config s = some x ∧
      rules.map Rule.resolved = resolve m (spec.sets.getD s.name []) ∧
      (∃ routed actions sharedFilter localFilter counting tables,
        x.filter.patches = actions ++ sharedFilter ++ localFilter ++ tables ∧
        LaidOut rules routed actions sharedFilter localFilter counting tables) ∧
      ((∀ r ∈ rules, r.isShared = false) →
        ∀ p ∈ x.filter.patches, p.inserted? ≠ some Fragment.sharedFilterName) ∧
      ((∀ r ∈ rules, r.isShared = true) →
        ∀ p ∈ x.filter.patches, p.inserted? ≠ some Fragment.localFilterName ∧ p.table? = none) := by
  intro rules
  have hname : Fragment.sharedFilterName ≠ Fragment.localFilterName := by decide
  obtain ⟨routed, actions, sharedFilter, localFilter, counting, tables, hpatches, hlaid⟩ :=
    laidOut_plan config rules
  rw [compileSubset_eq, if_neg hforce]
  refine ⟨_, rfl, map_resolved_rulesIn .., ⟨_, _, _, _, _, _, hpatches, hlaid⟩, ?_, ?_⟩
  · intro hall p hp hinserted
    rw [hpatches] at hp
    rcases hlaid.cases hp with ⟨v, -, hgives⟩ | ⟨hshared, -⟩ | ⟨-, hinserts⟩ | ⟨v, -, hcounts⟩
    · -- what is merged is not inserted, and a shared filter asks for a shared rule
      cases hgives.merged.inserted?.symm.trans hinserted
    · obtain ⟨r, hr, hrs⟩ := List.any_eq_true.1 hshared
      cases (hall r hr).symm.trans hrs
    · exact hname (Option.some.inj (hinserted.symm.trans hinserts.inserted))
    · cases hcounts.merged.inserted?.symm.trans hinserted
  · intro hall p hp
    rw [hpatches] at hp
    rcases hlaid.cases hp with ⟨v, -, hgives⟩ | ⟨-, hinserts⟩ | ⟨hown, -⟩ | ⟨v, hv, -⟩
    · exact ⟨by rw [hgives.merged.inserted?]; exact nofun, hgives.table⟩
    · refine ⟨fun hinserted => hname ?_, hinserts.table⟩
      exact Option.some.inj (hinserts.inserted.symm.trans hinserted)
    · obtain ⟨r, hr, hrs⟩ := List.any_eq_true.1 hown
      rw [hall r hr] at hrs
      cases hrs
    · obtain ⟨r, hr, -⟩ := (hlaid.countingHosts.mem_iff v).1 hv
      obtain ⟨hr, hrs⟩ := List.mem_filter.1 hr
      rw [hall r hr] at hrs
      cases hrs

/-- Rules of all kinds: own and shared ones, with and without a port, a header, an entry of their
own or a quota beyond 32 bits, and one whose interval is no unit. -/
def mixedSpec : LimiterSpec :=
  { sets := (∅ : Std.ExtTreeMap String (List Descriptor)).insert Subset.baseName
      [{ action := some { quota := "5", fillInterval := { seconds := 1 } }
         target := some { port := some 9080 } },
       { action := some { quota := "7", fillInterval := { seconds := 60 }, strategy := .shared } },
       { action := some { quota := "5000000000", fillInterval := { seconds := 1 } }
         target := some { port := some 9080 }
         customKey := some "tenant"
         customValue := some "gold" },
       { action := some { quota := "1", fillInterval := { seconds := 7 }, strategy := .shared }
         matchers := [{ name := "user", exactMatch := some "jason" }]
         target := some { direction := some "outbound", port := some 9080 } },
       { condition := "1 > 2"
         action := some { quota := "9", fillInterval := { seconds := 1 } } }] }

/-- Four of five rules are in force, for three hosts. -/
theorem patches_compileSubset_mixed :
    (resolve {} (mixedSpec.sets.getD Subset.base.name [])).map (·.quota) = [5, 7, 5000000000, 1] ∧
    ∃ x, compileSubset reviewsId mixedSpec {} ∅ {} Subset.base = some x ∧
      ∃ routed actions sharedFilter localFilter counting tables,
        x.filter.patches = actions ++ sharedFilter ++ localFilter ++ tables ∧
        LaidOut (rulesIn reviewsId mixedSpec {} Subset.base.name) routed actions
          sharedFilter localFilter
          counting tables := by
  have hquotas : (resolve {} (mixedSpec.sets.getD Subset.base.name [])).map (·.quota)
      = [5, 7, 5000000000, 1] := by decide +kernel
  refine ⟨hquotas, ?_⟩
  obtain ⟨x, hx, -, hlaid, -⟩ := patches_compileSubset reviewsId mixedSpec {} ∅ {} Subset.base
    (fun hnone => by rw [hnone] at hquotas; cases hquotas)
  exact ⟨x, hx, hlaid⟩

end MeshLimiter
