import MeshLimiter.Proofs.Pass.Tracking
/-!
# Whose filters are

The filter of a subset refers to its limiter as its owner, so that the cluster removes it once the
limiter is deleted. A filter that is created or replaced gets that reference. One that is right
already is left as it is, though, and so is its reference: if it was left behind by another limiter,
or by none, it stays so.

* **`ProxyFilter.BroughtAbout`**: what stands at the place of a filter once it was applied, given
  what stood there before;
* **`Pass.filter_owned_iff`**: whether a filter that a pass has brought about is owned by its
  limiter.
-/

namespace MeshLimiter

open Program (Runs runs_done)

namespace ProxyFilter

/-- A filter refers to the limiter with this unique identifier as its controller. -/
def OwnedBy (uid : String) (f : ProxyFilter) : Prop :=
  ∃ owner ∈ f.metadata.ownerReferences.getD [], owner.uid = uid ∧ owner.controller = some true

instance (uid : String) (f : ProxyFilter) : Decidable (f.OwnedBy uid) :=
  inferInstanceAs (Decidable (∃ owner ∈ _, _))

/-- What stands at the place of a filter once the filter was applied, given what stood there
before. -/
def BroughtAbout (id : ResourceId) (l : Limiter) (subset : String) (spec : FilterSpec)
    (before : Option ProxyFilter) (after : ProxyFilter) : Prop :=
  match before with
  | none => ∃ version, after = ((desired id l subset spec).marked ∅).atVersion version
  | some old =>
    if old.spec = spec then after = old
    else ∃ version, after = ((desired id l subset spec).inPlaceOf old).atVersion version

variable {R : Answering} {id : ResourceId} {l : Limiter} {subset : String} {spec : FilterSpec}
  {w w' : World} {tr : Trace} {before : Option ProxyFilter} {after : ProxyFilter}

/-- A filter that was applied has been brought about. -/
theorem broughtAbout_of_runs_apply (hR : R.Sound)
    (h : Runs R (apply id l subset (some spec)).run w tr (.ok ()) w') :
    ∃ f, w'.held.filters[filterPlace id subset]? = some f ∧
      BroughtAbout id l subset spec w.held.filters[filterPlace id subset]? f := by
  obtain ⟨r, v, rest, hget, rfl, hr⟩ := runs_apply h
  have hv : v.held = w.held := (hR hget).held_of_isQuiet rfl
  rcases hr with ⟨e, -, hy, -⟩ | ⟨found, rfl, hfound, -, -, rfl⟩ |
    ⟨found, rfl, hfound, q, u, counts, hwrite, -, hq⟩
  · cases hy
  · -- the filter is right already
    obtain ⟨old, rfl, hold⟩ := Option.map_eq_some_iff.1 hfound
    have hw := (hR hget).filter
    refine ⟨old, by rw [hv, ← hw], ?_⟩
    rw [← hw, BroughtAbout, if_pos hold]
  · -- the filter is written
    have hw := (hR hget).filter
    rcases hq with ⟨e, -, -, hy, -⟩ | ⟨hq, -, kind, hcount, -⟩
    · cases hy
    obtain ⟨a, rfl⟩ : ∃ a, q = .ok a := hq.resolve_right fun h => nomatch h.1
    have hu : w'.held = u.held := (hR hcount).held_of_isQuiet rfl
    rcases (hR hwrite).call with ⟨⟨e, he⟩, -⟩ | ⟨version, heffect⟩
    · cases he
    rw [hu, heffect, ← hw]
    cases found with
    | none => exact ⟨_, Std.ExtTreeMap.getElem?_insert_self, version, rfl⟩
    | some old =>
      refine ⟨_, Std.ExtTreeMap.getElem?_insert_self, ?_⟩
      rw [BroughtAbout, if_neg fun hold => hfound (congrArg some hold)]
      exact ⟨version, rfl⟩

/-- Either way it is a filter as it was to be. -/
theorem BroughtAbout.spec_eq (h : BroughtAbout id l subset spec before after) :
    after.spec = spec := by
  unfold BroughtAbout at h
  split at h
  · obtain ⟨version, rfl⟩ := h
    rfl
  · split at h
    · next hold => rw [h, hold]
    · obtain ⟨version, rfl⟩ := h
      rfl

/-! ## Owners

A reference needs both a name and a unique identifier. A limiter that the cluster has made has
them. -/

theorem ownerReference?_eq_some {uid name : String} (huid : l.metadata.uid = some uid)
    (hname : l.metadata.name = some name) : ∃ owner, l.ownerReference? = some owner ∧
      owner.uid = uid ∧ owner.controller = some true := by
  refine ⟨_, by rw [Limiter.ownerReference?, hname, huid]; rfl, rfl, rfl⟩

/-- A limiter without a name cannot be referred to. -/
theorem ownerReference?_eq_none (hname : l.metadata.name = none) : l.ownerReference? = none := by
  rw [Limiter.ownerReference?, hname]
  rfl

/-- **Who owns a filter that was applied.** A limiter with a name comes to own it if the filter was
not right before. Otherwise it is owned by whoever owned it before. -/
theorem BroughtAbout.ownedBy_iff (h : BroughtAbout id l subset spec before after) {uid : String}
    (huid : l.metadata.uid = some uid) : after.OwnedBy uid ↔
      (l.metadata.name.isSome = true ∧ before.map (·.spec) ≠ some spec) ∨
        ∃ old, before = some old ∧ old.OwnedBy uid := by
  -- a write refers to the limiter, if it has a name
  have hnamed : ∀ {name : String} {f : ProxyFilter}, l.metadata.name = some name →
      f.metadata.ownerReferences = (l.ownerReference?.map fun r => [r]) → f.OwnedBy uid := by
    intro name f hname hf
    obtain ⟨owner, howner, hcontrols⟩ := ownerReference?_eq_some huid hname
    exact ⟨owner, by rw [hf, howner]; exact List.mem_singleton_self _, hcontrols⟩
  cases before with
  | none =>
    obtain ⟨version, rfl⟩ := h
    cases hname : l.metadata.name with
    | none =>
      refine iff_of_false ?_ (by simp)
      rintro ⟨owner, howner, -⟩
      have howner : owner ∈ (l.ownerReference?.map fun r => [r]).getD [] := howner
      rw [ownerReference?_eq_none hname] at howner
      cases howner
    | some name => exact iff_of_true (hnamed hname rfl) (.inl ⟨rfl, nofun⟩)
  | some old =>
    unfold BroughtAbout at h
    dsimp only at h
    split at h
    · next hold =>
      subst h
      simp [hold]
    · next hold =>
      obtain ⟨version, rfl⟩ := h
      have hchanged : (some old).map (·.spec) ≠ some spec := fun h => hold (Option.some.inj h)
      cases hname : l.metadata.name with
      | none =>
        -- the owners of the filter that is replaced are kept
        have howners :
            (((desired id l subset spec).inPlaceOf old).atVersion version).metadata.ownerReferences
            = old.metadata.ownerReferences := by
          show (l.ownerReference?.map (fun r => [r]) <|> old.metadata.ownerReferences) = _
          rw [ownerReference?_eq_none hname]
          rfl
        rw [OwnedBy, howners]
        simp [OwnedBy]
      | some name =>
        refine iff_of_true (hnamed hname ?_) (.inl ⟨rfl, hchanged⟩)
        show (l.ownerReference?.map (fun r => [r]) <|> old.metadata.ownerReferences) = _
        obtain ⟨owner, howner, -⟩ := ownerReference?_eq_some huid hname
        rw [howner]
        rfl

end ProxyFilter

namespace Pass

open ProxyFilter (BroughtAbout)

variable {R : Answering} {s : Settings} {id : ResourceId} {l : Limiter} {w w' : World} {tr : Trace}

/-- If all filters could be applied, each that is to be there has been brought about. -/
theorem broughtAbout_of_runs_applyAll (hR : R.Sound) {entries : List (String × Option FilterSpec)}
    (hnodup : (entries.map Prod.fst).Nodup) {a a' : Applying}
    (h : Runs R (applyAll id l a entries) w tr a' w') (hok : a'.failure = none) {n : String}
    {spec : FilterSpec} (hn : (n, some spec) ∈ entries) :
    ∃ f, w'.held.filters[filterPlace id n]? = some f ∧
      BroughtAbout id l n spec w.held.filters[filterPlace id n]? f := by
  induction entries generalizing a w tr with
  | nil => cases hn
  | cons entry more ih =>
    obtain ⟨subset, wanted⟩ := entry
    obtain ⟨tr₁, a₁, v, tr₂, h₁, h₂, rfl⟩ := Program.runs_bind.1 h
    obtain ⟨hfresh, hmore⟩ := List.nodup_cons.1 hnodup
    obtain ⟨y, hrun, hnote⟩ := runs_applyOne h₁
    have hrest := allBroughtTo_of_runs hR hmore h₂
    -- the filters stand at different places
    have hne : ∀ e ∈ more, filterPlace id subset ≠ filterPlace id e.1 := by
      intro e he heq
      exact hfresh (List.mem_map.2 ⟨e, he, (filterPlace_injective heq).symm⟩)
    rcases List.mem_cons.1 hn with heq | hn
    · obtain ⟨rfl, rfl⟩ := Prod.mk.inj heq
      obtain ⟨rfl, -⟩ := hnote.ok (Classical.not_not.1 fun hf => hrest.stays hf hok)
      rw [hrest.frame _ hne]
      exact ProxyFilter.broughtAbout_of_runs_apply hR hrun
    · have hframe := (ProxyFilter.broughtTo_of_runs_apply hR hrun).frame (filterPlace id n)
        (hne _ hn).symm
      rw [← hframe]
      exact ih hmore h₂ hn

/-- A pass that collects metrics and succeeds has brought about the filters that it has compiled. -/
theorem broughtAbout_of_collects (hR : R.Sound) {t : Taken} {c : Collected} (ran : t.Ran R s)
    (hkey : keyOf t.limiter = .ok id) (hc : t.Collects s id c) (hok : t.result = .ok ())
    {n : String}
    {spec : FilterSpec} (hn : (compiledOf s id t.limiter c).filters[n]? = some (some spec)) :
    ∃ f, t.after.held.filters[filterPlace id n]? = some f ∧
      BroughtAbout id t.limiter n spec t.before.held.filters[filterPlace id n]? f := by
  obtain ⟨new, v, v', trᵣ, hv, hv', hbring, -⟩ := ran.rest hR hkey hc
  rw [hok] at hbring
  obtain ⟨registered, w₁, w₂, w₃, a, tr₁, tr₂, rest, hmerge, hw₂, hall, -, -, -, hy⟩ :=
    runs_bringAbout hR hbring
  -- the merge leaves the filters alone, and so does the end of the pass
  have hbefore : w₂.held.filters = t.before.held.filters := by
    rw [hw₂, held_of_mergedTo (Registry.mergedTo_of_runs hR hmerge), hv]
    rfl
  rcases hy with ⟨-, -, hnone, hend⟩ | ⟨⟨e, he⟩, -⟩
  · rw [← hv', hend, ← hbefore]
    exact broughtAbout_of_runs_applyAll hR (nodup_toList_desiredFilters ..) hall hnone
      (mem_desiredOf_some.2 hn)
  · cases he

/-- **Whose the filters of a pass are.** After a pass that collects metrics and succeeds, each
filter that it has compiled stands at its place. Whatever stood there before: it is owned by the
limiter exactly if it was before, or if it had another specification, or none was there, and the
limiter has a name. -/
theorem filter_owned_iff (hR : R.Sound) {t : Taken} {c : Collected} (ran : t.Ran R s)
    (hkey : keyOf t.limiter = .ok id) (hc : t.Collects s id c) (hok : t.result = .ok ())
    {uid : String}
    (huid : t.limiter.metadata.uid = some uid) {n : String} {spec : FilterSpec}
    (hn : (compiledOf s id t.limiter c).filters[n]? = some (some spec)) :
    ∃ f, t.after.held.filters[filterPlace id n]? = some f ∧ f.spec = spec ∧
      (f.OwnedBy uid ↔
        (t.limiter.metadata.name.isSome = true ∧
          (t.before.held.filters[filterPlace id n]?).map (·.spec) ≠ some spec) ∨
        ∃ old, t.before.held.filters[filterPlace id n]? = some old ∧ old.OwnedBy uid) := by
  obtain ⟨f, hf, hbrought⟩ := broughtAbout_of_collects hR ran hkey hc hok hn
  exact ⟨f, hf, hbrought.spec_eq, hbrought.ownedBy_iff huid⟩

/-! ## A limiter that is made anew

The old filter is as the new limiter wants it, so it is left alone, and with it the reference to the
old limiter. -/

/-- A limiter with a rule for one subset, as the cluster has made it. -/
def ownedLimiter (uid : String) : Limiter :=
  let l := reviewsLimiter 1 [("v1", "1")]
  { l with metadata := { l.metadata with uid := some uid } }

/-- The pass over a limiter that is new, as its filter is. -/
def firstMade : Taken :=
  .alone noMetrics (reviewsWorld []) .changed (ownedLimiter "a1")

/-- The pass over the same limiter made anew after it was deleted, while its filter is still
there. -/
def madeAnew : Taken :=
  .alone noMetrics ((delete noMetrics reviews).run.runAlone firstMade.after).2 .changed
    (ownedLimiter "b2")

/-- The subsets that either pass finds. -/
def twoSubsetsFound : List Subset :=
  [{ name := "v1" }, { name := "v2" }]

/-- What either pass has collected. -/
def twoSubsets (t : Taken) : Collected :=
  .ofEntry (t.before.held.store.seen noMetrics reviews twoSubsetsFound [] []) {} twoSubsetsFound

/-- What a pass sees that finds the two subsets, and no metrics. -/
def twoSubsetsSeen : Trace :=
  (Observation.complete {} twoSubsetsFound [] []).events noMetrics reviews

theorem ran_alone (w : World) (l : Limiter) :
    (Taken.alone noMetrics w .changed l).Ran World.Answers noMetrics :=
  (history_alone noMetrics w [(.changed, l)]).ran _ List.mem_cons_self

theorem ran_firstMade : firstMade.Ran World.Answers noMetrics :=
  ran_alone _ _

theorem ran_madeAnew : madeAnew.Ran World.Answers noMetrics :=
  ran_alone _ _

/-- What was seen decides what was collected. -/
theorem collects_twoSubsets {t : Taken} (h : Trace.agree t.trace.observed twoSubsetsSeen = true) :
    t.Collects noMetrics reviews (twoSubsets t) :=
  ⟨{}, twoSubsetsFound, [], [], fun _ => rfl, Trace.eq_of_agree h, rfl⟩

/-- The first pass finds no filter, and creates it. -/
theorem outcome_firstMade : firstMade.result = .ok () ∧
    firstMade.Collects noMetrics reviews (twoSubsets firstMade) ∧
    firstMade.before.held.filters[filterPlace reviews "v1"]? = none ∧
    ∃ spec, (compiledOf noMetrics reviews firstMade.limiter (twoSubsets firstMade)).filters["v1"]?
      = some (some spec) := by
  obtain ⟨hok, hseen, hnew, hspec⟩ : firstMade.result.isOk = true ∧
      Trace.agree firstMade.trace.observed twoSubsetsSeen = true ∧
      (firstMade.before.held.filters[filterPlace reviews "v1"]?).isNone = true ∧
      ((compiledOf noMetrics reviews firstMade.limiter
        (twoSubsets firstMade)).filters["v1"]?.join).isSome = true := by
    decide +kernel
  obtain ⟨u, hok⟩ := exists_eq_ok_of_isOk hok
  obtain ⟨spec, hspec⟩ := Option.isSome_iff_exists.1 hspec
  exact ⟨hok, collects_twoSubsets hseen, Option.isNone_iff_eq_none.1 hnew, spec,
    Option.join_eq_some_iff.1 hspec⟩

/-- The filter that stands there before the second pass is right, but it is not the limiter's, and
neither is it afterwards. -/
theorem outcome_madeAnew : madeAnew.result = .ok () ∧
    madeAnew.Collects noMetrics reviews (twoSubsets madeAnew) ∧
    (∃ old, madeAnew.before.held.filters[filterPlace reviews "v1"]? = some old ∧
      ¬ old.OwnedBy "b2" ∧
      (compiledOf noMetrics reviews madeAnew.limiter (twoSubsets madeAnew)).filters["v1"]?
        = some (some old.spec)) ∧
    ∀ f, madeAnew.after.held.filters[filterPlace reviews "v1"]? = some f → ¬ f.OwnedBy "b2" := by
  obtain ⟨hok, hseen, hright, hafter⟩ : madeAnew.result.isOk = true ∧
      Trace.agree madeAnew.trace.observed twoSubsetsSeen = true ∧
      (madeAnew.before.held.filters[filterPlace reviews "v1"]?).any (fun old =>
        !decide (old.OwnedBy "b2") && decide ((compiledOf noMetrics reviews madeAnew.limiter
          (twoSubsets madeAnew)).filters["v1"]? = some (some old.spec))) = true ∧
      (madeAnew.after.held.filters[filterPlace reviews "v1"]?).all (fun f =>
        !decide (f.OwnedBy "b2")) = true := by
    decide +kernel
  obtain ⟨u, hok⟩ := exists_eq_ok_of_isOk hok
  refine ⟨hok, collects_twoSubsets hseen, ?_, fun f hf hown => ?_⟩
  · -- the filter was there, right, and another's
    cases hold : madeAnew.before.held.filters[filterPlace reviews "v1"]? with
    | none =>
      rw [hold] at hright
      cases hright
    | some old =>
      rw [hold, Option.any_some, Bool.and_eq_true, Bool.not_eq_true', decide_eq_false_iff_not,
        decide_eq_true_eq] at hright
      exact ⟨old, rfl, hright⟩
  · -- and it is another's still
    rw [hf, Option.all_some, decide_eq_true hown] at hafter
    cases hafter

/-- The limiter owns the filter that was made for it, but not the one that it has found. -/
theorem filter_owned_iff_madeAnew :
    (∃ f, firstMade.after.held.filters[filterPlace reviews "v1"]? = some f ∧ f.OwnedBy "a1") ∧
      ∃ f, madeAnew.after.held.filters[filterPlace reviews "v1"]? = some f ∧ ¬ f.OwnedBy "b2" := by
  constructor
  · -- created, so owned
    obtain ⟨hok, hc, hnew, spec, hspec⟩ := outcome_firstMade
    have hkey : keyOf firstMade.limiter = .ok reviews := rfl
    obtain ⟨f, hf, -, howned⟩ := filter_owned_iff sound_answers ran_firstMade hkey hc hok rfl hspec
    exact ⟨f, hf, howned.2 (.inl ⟨rfl, by rw [hnew]; exact nofun⟩)⟩
  · -- left as it was, so not owned
    obtain ⟨hok, hc, ⟨old, hold, hother, hspec⟩, -⟩ := outcome_madeAnew
    have hkey : keyOf madeAnew.limiter = .ok reviews := rfl
    obtain ⟨f, hf, -, howned⟩ := filter_owned_iff sound_answers ran_madeAnew hkey hc hok rfl hspec
    refine ⟨f, hf, fun h => ?_⟩
    rcases howned.1 h with ⟨-, hchanged⟩ | ⟨old', hold', hown⟩
    · exact hchanged (by rw [hold]; rfl)
    · rw [hold] at hold'
      exact hother (Option.some.inj hold' ▸ hown)

/-- A limiter may not own a filter that its pass has left as it was. -/
theorem exists_filter_not_owned : ¬ ∀ (s : Settings) (id : ResourceId) (t : Taken) (c : Collected),
    t.Ran World.Answers s → keyOf t.limiter = .ok id → t.Collects s id c → t.result = .ok () →
    ∀ uid, t.limiter.metadata.uid = some uid → ∀ n spec,
    (compiledOf s id t.limiter c).filters[n]? = some (some spec) →
    ∃ f, t.after.held.filters[filterPlace id n]? = some f ∧ f.OwnedBy uid := by
  intro h
  obtain ⟨hok, hc, ⟨old, -, -, hspec⟩, hafter⟩ := outcome_madeAnew
  obtain ⟨f, hf, hown⟩ := h noMetrics reviews madeAnew _ ran_madeAnew rfl hc hok "b2" rfl "v1"
    old.spec hspec
  exact hafter f hf hown

end Pass

end MeshLimiter
