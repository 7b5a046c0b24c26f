import MeshLimiter.Proofs.Pass.History
/-!
# Limiters that are passed over

A limiter whose specification and material are as last applied is passed over. What was last applied
is remembered by passes that succeed, but filters and registry may be changed by passes that fail as
well. So passing over is right exactly as long as what the last successful pass brought about still
stands.

* **`Pass.LastRecorded`**: the last pass that was remembered, and the passes since;
* **`Pass.History.remembered`**: what is remembered comes from such a pass, and the revision of the
  material tells whether the metrics are still the ones that it saw;
* **`Pass.passed_over_iff`**: when a limiter that is passed over needs no pass.
-/

namespace MeshLimiter.Pass

open Program (Runs)

variable {R : Answering} {s : Settings} {id : ResourceId} {l : Limiter} {c : Collected}
  {w w' : World} {h : Held} {ts since : List Taken} {p t : Taken}

/-! ## What is remembered

It comes from the last pass that succeeded, and later ones that failed have left it as it was. -/

/-- The last pass that was remembered, with the metrics that it collected. The passes since then
have collected none, or have failed. -/
structure LastRecorded (s : Settings) (id : ResourceId) (ts : List Taken) (p : Taken)
    (c : Collected) (since : List Taken) : Prop where
  split : ∃ before, ts = before ++ p :: since
  result : p.result = .ok ()
  collects : p.Collects s id c
  since : ∀ t ∈ since, ∀ c', t.Collects s id c' → ∃ e, t.result = .error e

/-- A pass that collects nothing, or fails, is not the last to be recorded. -/
theorem LastRecorded.snoc (hl : LastRecorded s id ts p c since)
    (ht : ∀ c', t.Collects s id c' → ∃ e, t.result = .error e) :
    LastRecorded s id (ts ++ [t]) p c (since ++ [t]) := by
  obtain ⟨before, rfl⟩ := hl.split
  exact
    { split := ⟨before, by simp⟩
      result := hl.result
      collects := hl.collects
      since := List.forall_mem_append.2 ⟨hl.since, List.forall_mem_singleton.2 ht⟩ }

/-- What the entry of a limiter holds; an empty one if it has none. -/
def contentOf (h : Held) (id : ResourceId) : Entry :=
  (h.store.lookup? id).getD {}

/-- What is remembered comes from the last pass that was recorded. The revision has not gone back
since, and as long as it is the same, so is the material. -/
structure Remembered (s : Settings) (id : ResourceId) (ts : List Taken) (h : Held) : Prop where
  owns : h.store.Owns id
  recorded : ∀ a, h.applied[id]? = some a → ∃ p c since, LastRecorded s id ts p c since ∧
    a = appliedOf p.limiter c ∧ h.interest.contains id = true ∧
    c.revision ≤ (contentOf h id).revision ∧
    ((contentOf h id).revision = c.revision → (contentOf h id).material = c.material)

/-- Passes that are not remembered leave what is remembered, if the material does not go back. -/
theorem Remembered.keep {h' : Held} (hr : Remembered s id ts h)
    (ht : ∀ c', t.Collects s id c' → ∃ e, t.result = .error e) (howns : h'.store.Owns id)
    (happlied : h'.applied = h.applied)
    (hinterest : h.interest.contains id = true → h'.interest.contains id = true)
    (hcontent : contentOf h' id = contentOf h id ∨
      (contentOf h id).revision < (contentOf h' id).revision) :
    Remembered s id (ts ++ [t]) h' := by
  refine ⟨howns, fun a ha => ?_⟩
  rw [happlied] at ha
  obtain ⟨p, c, since, hl, hap, hi, hle, hsame⟩ := hr.recorded a ha
  refine ⟨p, c, since ++ [t], hl.snoc ht, hap, hinterest hi, ?_⟩
  rcases hcontent with heq | hlt
  · rw [heq]
    exact ⟨hle, hsame⟩
  · exact ⟨by omega, fun heq => by omega⟩

/-- Once it is seen, the entry of a limiter holds what was seen. -/
theorem contentOf_seen (howns : h.store.Owns id) (new : Entry) :
    contentOf (h.seen id new) id = new := by
  have hlookup : (h.seen id new).store.lookup? id = some new :=
    MaterialStore.lookup?_put_entry howns new
  rw [contentOf, hlookup]
  rfl

/-- Every pass keeps what is remembered in this way. -/
theorem Remembered.step (hR : R.Sound) (hkey : keyOf t.limiter = .ok id) (ht : t.Ran R s)
    (hr : Remembered s id ts t.before.held) : Remembered s id (ts ++ [t]) t.after.held := by
  cases ht.course hR hkey with
  | idle held _ observed =>
    rw [held]
    exact hr.keep (fun c' hc => absurd observed hc.observed_ne_nil) hr.owns rfl
      (fun hi => hi) (.inl rfl)
  | blind collects _ _ held =>
    rw [held]
    refine hr.keep (fun c' hc => absurd hc (collects c')) hr.owns.entry rfl (fun _ => ?_) (.inl ?_)
    · exact Std.ExtTreeSet.contains_insert_self
    · show ((t.before.held.store.entry id).2.lookup? id).getD {} = contentOf t.before.held id
      rw [MaterialStore.lookup?_entry]
      rfl
  | seen service subsets pods replies collects effects =>
    have howns : t.after.held.store.Owns id := by
      rw [effects.store]
      exact hr.owns.entry.put _ _
    have hinterest : t.after.held.interest.contains id = true := by
      rw [effects.interest]
      exact Std.ExtTreeSet.contains_insert_self
    have hcontent : contentOf t.after.held id
        = t.before.held.store.seen s id subsets pods replies := by
      rw [contentOf, effects.store]
      exact contentOf_seen hr.owns _
    rcases effects.applied with ⟨hok, happlied⟩ | ⟨herror, happlied⟩
    · -- this pass is the one that is remembered now
      refine ⟨howns, fun a ha => ?_⟩
      rw [happlied, Std.ExtTreeMap.getElem?_insert_self] at ha
      obtain rfl := Option.some.inj ha
      refine ⟨t, _, [], ⟨⟨ts, rfl⟩, hok, collects, List.forall_mem_nil _⟩, rfl, hinterest, ?_⟩
      rw [hcontent]
      exact ⟨Nat.le_refl _, fun _ => rfl⟩
    · -- it has failed: the earlier pass stays, and new material has a higher revision
      refine hr.keep (fun _ _ => herror) howns happlied (fun _ => hinterest) ?_
      rw [hcontent]
      exact Entry.observe_cases ..

/-- All through a history, what is remembered comes from the last pass that was recorded. -/
theorem History.remembered (hR : R.Sound) {w₀ : World} (hstart : w₀.memory = {})
    (hist : History R s w₀ ts w) (hkeys : ∀ t ∈ ts, keyOf t.limiter = .ok id) :
    Remembered s id ts w.held := by
  induction hist with
  | start =>
    have hstore : w₀.held.store = {} := congrArg Memory.store hstart
    have happlied : w₀.held.applied = ∅ := congrArg Memory.applied hstart
    refine ⟨fun e he => ?_, fun a ha => ?_⟩
    · rw [hstore] at he
      simp [MaterialStore.find?] at he
    · rw [happlied] at ha
      simp at ha
  | @snoc ts t prior ran ih =>
    exact (ih fun t' ht' => hkeys t' (List.mem_append_left _ ht')).step hR (hkeys t (by simp)) ran

/-! ## A pass that sees the same again

It finds the entry as the last one left it, so it comes to the same material. -/

/-- Whether filters and registry stand does not depend on the entry. -/
theorem stands_seen {new : Entry} : Stands s id l c (h.seen id new) ↔ Stands s id l c h :=
  ⟨fun hs => ⟨hs.registered, hs.filters⟩, fun hs => ⟨hs.registered, hs.filters⟩⟩

/-- Who sees what an earlier pass saw, and has the material that it left, collects the same. -/
theorem Taken.Collects.again (hp : p.Collects s id c) (hseen : t.trace.observed = p.trace.observed)
    (hcontent : contentOf t.before.held id = ⟨c.material, c.revision⟩) : t.Collects s id c := by
  obtain ⟨service, subsets, pods, replies, hfits, hshown, rfl⟩ := hp
  refine ⟨service, subsets, pods, replies, hfits, hseen.trans hshown, ?_⟩
  have hentry : t.before.held.store.seen s id subsets pods replies
      = p.before.held.store.seen s id subsets pods replies := by
    show (contentOf t.before.held id).observe s id subsets pods replies = _
    rw [hcontent]
    exact Entry.observe_observe ..
  rw [hentry]

/-- A full pass that sees the same again has the effects of a pass with the same metrics. -/
theorem effects_of_sync_again (hR : R.Sound) {y : Except PassError Unit} {tr : Trace}
    (hrun : Runs R (sync s id l).run w tr y w') (hinterest : w.held.interest.contains id = true)
    (hp : p.Collects s id c) (hseen : tr.observed = p.trace.observed)
    (hcontent : contentOf w.held id = ⟨c.material, c.revision⟩) :
    ∃ new, Effects R s id l c (w.held.seen id new) tr y w'.held := by
  let t : Taken :=
    { occasion := .metrics, limiter := l, before := w, trace := tr, result := y, after := w' }
  have hwithin : Within R s id l { w.held with interest := w.held.interest.insert id } tr y w' :=
    ⟨w, w', [], tr, [], (insert_interest_of_contains hinterest).symm, hrun, rfl, by simp,
      rfl, rfl, rfl, rfl⟩
  have hc : t.Collects s id c := hp.again (t := t) hseen hcontent
  cases Taken.course_of_within (t := t) hR hwithin with
  | idle _ _ observed => exact absurd observed hc.observed_ne_nil
  | blind collects _ _ _ => exact absurd hc (collects c)
  | seen service subsets pods replies collects effects =>
    obtain rfl := hc.eq collects
    exact ⟨_, effects⟩

/-! ## What a successful pass leaves

Its filters and its entries in the registry stand, for any limiter with the same specification. -/

/-- A pass that succeeds has brought everything about, if the registry that it left is read as it
was meant. -/
theorem Effects.stands {h' : Held} {tr : Trace} (he : Effects R s id l c h tr (.ok ()) h')
    (hR : R.Truthful)
    (hreg : Registry.Settled s id (compiledOf s id l c).shared h'.configMaps[s.registry]?) :
    Stands s id l c h' := by
  refine ⟨hreg, ?_⟩
  obtain ⟨hpresent, habsent⟩ := he.filters (.inr rfl)
  obtain ⟨names, hwritten, -, hnames, -⟩ := he.written
  have hget : h'.written.getD id ∅ = names := by
    rw [hwritten]
    exact Std.ExtTreeMap.getD_insert_self
  rintro ⟨n, v⟩ hn
  rw [hget] at hn
  -- what was not compiled was noted before already, so the pass has taken it away
  have hbefore : (n, v) ∈ desiredOf s id l c (h.written.getD id ∅) := by
    unfold desiredOf at hn ⊢
    rw [mem_toList_desiredFilters] at hn ⊢
    rcases hn with hn | ⟨hnone, rfl, hmem, hstray⟩
    · exact .inl hn
    · obtain ⟨spec, hspec⟩ := hnames n hmem
      unfold desiredOf at hspec
      rw [mem_toList_desiredFilters] at hspec
      rcases hspec with hcompiled | ⟨-, -, hold, -⟩
      · rw [hnone] at hcompiled
        cases hcompiled
      · exact .inr ⟨hnone, rfl, hold, hstray⟩
  cases v with
  | some spec => exact hpresent n spec hbefore
  | none =>
    rw [habsent hR n hbefore]
    rfl

/-- The same for a pass that was taken. -/
theorem stands_of_recorded (hR : R.Sound) (hT : R.Truthful) (hkey : keyOf p.limiter = .ok id)
    (hp : p.Ran R s) (hc : p.Collects s id c) (hok : p.result = .ok ())
    (hreg : Registry.Settled s id (compiledOf s id p.limiter c).shared
      p.after.held.configMaps[s.registry]?) : Stands s id p.limiter c p.after.held := by
  cases hp.course hR hkey with
  | idle _ _ observed => exact absurd observed hc.observed_ne_nil
  | blind collects _ _ _ => exact absurd hc (collects c)
  | seen service subsets pods replies collects effects =>
    obtain rfl := hc.eq collects
    rw [hok] at effects
    exact effects.stands hT hreg

/-- Of a limiter only the specification is compiled. -/
theorem compiledOf_congr {l' : Limiter} (h : l.spec = l'.spec) :
    compiledOf s id l c = compiledOf s id l' c := by
  unfold compiledOf
  rw [h]

theorem stands_congr {l' : Limiter} (h : l.spec = l'.spec) :
    Stands s id l c w.held ↔ Stands s id l' c w.held := by
  have hdesired : ∀ written, desiredOf s id l c written = desiredOf s id l' c written := by
    intro written
    unfold desiredOf
    rw [compiledOf_congr h]
  constructor
  · exact fun hs => ⟨compiledOf_congr h ▸ hs.registered, fun e he => hs.filters e (hdesired _ ▸ he)⟩
  · exact fun hs => ⟨compiledOf_congr h ▸ hs.registered, fun e he => hs.filters e (hdesired _ ▸ he)⟩

/-- Passes that collect no metrics leave standing what stands. -/
theorem stands_of_blind (hR : R.Sound) (hkey : keyOf t.limiter = .ok id) (ht : t.Ran R s)
    (hblind : ∀ c', ¬ t.Collects s id c') (hs : Stands s id l c t.before.held) :
    Stands s id l c t.after.held := by
  cases ht.course hR hkey with
  | idle held _ _ =>
    rw [held]
    exact hs
  | blind _ _ _ held =>
    rw [held]
    exact ⟨hs.registered, hs.filters⟩
  | seen service subsets pods replies collects _ => exact absurd collects (hblind _)

/-- What stands after a pass stands until a later one collects metrics. -/
theorem History.stands (hR : R.Sound) {w₀ : World} (hist : History R s w₀ ts w)
    (hkeys : ∀ t ∈ ts, keyOf t.limiter = .ok id) {before : List Taken}
    (hsplit : ts = before ++ p :: since) (hblind : ∀ t ∈ since, ∀ c', ¬ t.Collects s id c')
    (hs : Stands s id l c p.after.held) : Stands s id l c w.held := by
  -- from the end of the history back to `p`
  induction hist generalizing since with
  | start => simp at hsplit
  | @snoc ts t prior ran ih =>
    rcases List.eq_nil_or_concat since with rfl | ⟨since, last, rfl⟩
    · obtain ⟨-, hlast⟩ := List.append_inj' hsplit rfl
      cases hlast
      exact hs
    · have hsplit' : ts ++ [t] = (before ++ p :: since) ++ [last] := by simpa using hsplit
      obtain ⟨hts, hlast⟩ := List.append_inj' hsplit' rfl
      cases hlast
      refine stands_of_blind hR (hkeys t (by simp)) ran (hblind t (by simp)) ?_
      exact ih (fun t' ht' => hkeys t' (List.mem_append_left _ ht')) hts
        fun t' ht' => hblind t' (by simp [ht'])

/-! ## Passing over

A limiter is passed over if its specification and its revision are the ones that are remembered. -/

theorem revisionOf_eq (m : MaterialStore) (id : ResourceId) :
    revisionOf m id = (m.lookup? id).map (·.revision) := by
  unfold revisionOf MaterialStore.lookup?
  rw [Option.map_map]
  rfl

/-- What is passed over has been applied, at that revision. -/
theorem exists_applied_of_isApplied {last : Option Applied} {revision : Option Nat}
    (h : isApplied last l revision = true) : ∃ a, last = some a ∧ revision = some a.revision := by
  cases last with
  | none => cases h
  | some a =>
    unfold isApplied at h
    simp only [Bool.and_eq_true, decide_eq_true_eq] at h
    exact ⟨a, rfl, h.1.symm⟩

/-- A pass over a changed limiter that succeeds without a call has found it as last applied. -/
theorem isApplied_of_runs (hR : R.Sound) (hkey : keyOf l = .ok id) {tr : Trace}
    (hskip : Runs R (reconcile s l).run w tr (.ok ()) w') (hcalls : tr.calls = []) :
    isApplied w.held.applied[id]? l (revisionOf w.held.store id) = true := by
  rcases runs_reconcile hR hkey hskip with ⟨-, ⟨e, he⟩, -⟩ | ⟨happlied, -⟩ | hwithin
  · cases he
  · exact happlied
  · exact absurd hcalls (Taken.calls_ne_nil_of_within hR hwithin)

/-- **When a limiter that is passed over needs no pass.** Let passes over one limiter be taken since
the controller started, whatever fails. If the limiter is passed over then, what is remembered of it
comes from its last recorded pass, and a full pass that saw now what that one saw would write no
filter and no registry exactly if what it brought about still stands. It does as long as no later
pass collects metrics, for the same specification and a registry that reads as it was written. A
later pass that collects metrics and then fails may have changed it, and is not remembered. -/
theorem passed_over_iff (hR : R.Sound) {w₀ : World} (hstart : w₀.memory = {})
    (hist : History R s w₀ ts w) (hkeys : ∀ t ∈ ts, keyOf t.limiter = .ok id)
    (hkey : keyOf l = .ok id) {tr : Trace}
    (hskip : Runs R (reconcile s l).run w tr (.ok ()) w') (hcalls : tr.calls = []) :
    ∃ p c since, LastRecorded s id ts p c since ∧
      w.held.applied[id]? = some (appliedOf p.limiter c) ∧
      (∀ v tr' y v', v.held = w.held → Runs R (sync s id l).run v tr' y v' →
        tr'.observed = p.trace.observed →
        (Stands s id l c w.held → ∀ k ∈ tr'.calls, k.writesMesh = false) ∧
        (y = .ok () → (∀ k ∈ tr'.calls, k.writesMesh = false) → Stands s id l c w.held)) ∧
      (R.Truthful → l.spec = p.limiter.spec →
        Registry.Settled s id (compiledOf s id l c).shared p.after.held.configMaps[s.registry]? →
        (∀ t ∈ since, ∀ c', ¬ t.Collects s id c') → Stands s id l c w.held) := by
  obtain ⟨a, ha, hrevision⟩ := exists_applied_of_isApplied (isApplied_of_runs hR hkey hskip hcalls)
  have hremembered : Remembered s id ts w.held := hist.remembered hR hstart hkeys
  obtain ⟨p, c, since, hlast, rfl, hinterest, -, hsame⟩ := hremembered.recorded a ha
  -- the entry still holds the material that the recorded pass left
  have hcontent : contentOf w.held id = ⟨c.material, c.revision⟩ := by
    rw [revisionOf_eq] at hrevision
    obtain ⟨entry, hentry, hr⟩ := Option.map_eq_some_iff.1 hrevision
    have hof : contentOf w.held id = entry := by
      rw [contentOf, hentry]
      rfl
    have hr : (contentOf w.held id).revision = c.revision := by
      rw [hof]
      exact hr
    rw [← hsame hr, ← hr]
  refine ⟨p, c, since, hlast, ha, ?_, ?_⟩
  · -- a full pass would collect the same metrics, so its effects tell whether all stands
    intro v tr' y v' hv hrun hseen
    rw [← hv] at hinterest hcontent
    obtain ⟨new, effects⟩ := effects_of_sync_again hR hrun hinterest hlast.collects hseen hcontent
    rw [← hv]
    exact ⟨fun hs => effects.settled (stands_seen.2 hs),
      fun hy hnone => stands_seen.1 (effects.unwritten hy hnone)⟩
  · -- all stood when the recorded pass was over, and nothing has touched it since
    intro hT hspec hreg hblind
    obtain ⟨before, hsplit⟩ := hlast.split
    have hmem : p ∈ ts := by
      rw [hsplit]
      simp
    have hp : Stands s id p.limiter c p.after.held :=
      stands_of_recorded hR hT (hkeys p hmem) (hist.ran p hmem) hlast.collects hlast.result
        ((compiledOf_congr hspec) ▸ hreg)
    exact hist.stands hR hkeys hsplit hblind ((stands_congr hspec).2 hp)

/-! ## A specification that goes back

The specification is changed, which fails half way, and changed back. What was remembered is equal
again, but a filter is not. -/

/-- A limiter of two subsets with the same quota. -/
def evenLimiter (generation : Int64) (quota : String) : Limiter :=
  reviewsLimiter generation [("v1", quota), ("v2", quota)]

/-- A world in which the filter of the second subset cannot be replaced. -/
def stuckWorld : World :=
  reviewsWorld [{ kind := "replace_filter", name := some (filterName reviews "v2"), code := 500 }]

/-- A limiter that was applied once and is passed over then: all that it brought about stands. -/
theorem passed_over_iff_applied :
    let t := Taken.alone noMetrics stuckWorld .changed (evenLimiter 1 "1")
    ∃ c, t.Collects noMetrics reviews c ∧
      Stands noMetrics reviews (evenLimiter 1 "1") c t.after.held := by
  intro t
  have hist : History World.Answers noMetrics stuckWorld [t] t.after :=
    history_alone noMetrics stuckWorld [(.changed, evenLimiter 1 "1")]
  -- the limiter is passed over, and a full pass there looks at the same and writes nothing
  obtain ⟨hskips, hquiet, hsyncs, hsame, hunwritten⟩ :
      ((reconcile noMetrics (evenLimiter 1 "1")).run.runAlone t.after).1.isOk = true ∧
      (Trace.calls ((reconcile noMetrics (evenLimiter 1 "1")).run.traceAlone t.after)).isEmpty =
        true ∧
      ((sync noMetrics reviews (evenLimiter 1 "1")).run.runAlone t.after).1.isOk = true ∧
      Trace.agree
        (Trace.observed ((sync noMetrics reviews (evenLimiter 1 "1")).run.traceAlone t.after))
        t.trace.observed = true ∧
      ∀ k ∈ Trace.calls ((sync noMetrics reviews (evenLimiter 1 "1")).run.traceAlone t.after),
        k.writesMesh = false := by decide +kernel
  obtain ⟨u, hskip⟩ := exists_eq_ok_of_isOk hskips
  have hrun := Program.runs_answers_runAlone (reconcile noMetrics (evenLimiter 1 "1")).run t.after
  rw [hskip] at hrun
  have hcalls := List.isEmpty_iff.1 hquiet
  have hkeys : ∀ t' ∈ [t], keyOf t'.limiter = .ok reviews := List.forall_mem_singleton.2 rfl
  obtain ⟨p, c, since, hlast, -, hsync, -⟩ :=
    passed_over_iff sound_answers rfl hist hkeys rfl hrun hcalls
  obtain ⟨before, hsplit⟩ := hlast.split
  obtain rfl : t = p := by
    cases before with
    | nil => exact (List.cons.inj hsplit).1
    | cons b before => simp at hsplit
  obtain ⟨u', hok⟩ := exists_eq_ok_of_isOk hsyncs
  exact ⟨c, hlast.collects, (hsync t.after _ _ _ rfl (Program.runs_answers_runAlone _ _)
    (Trace.eq_of_agree hsame)).2 hok hunwritten⟩

/-- A pass with another quota replaces one filter and fails at the other, and then the first quota
comes back. The limiter is passed over, while the first filter still has the other quota. -/
theorem exists_passed_over_in_vain : ¬ ∀ (s : Settings) (id : ResourceId) (l : Limiter)
    (w₀ w w' : World) (ts : List Taken) (tr : Trace), w₀.memory = {} →
    History World.Answers s w₀ ts w → (∀ t ∈ ts, keyOf t.limiter = .ok id) → keyOf l = .ok id →
    Runs World.Answers (reconcile s l).run w tr (.ok ()) w' → tr.calls = [] →
    ∀ p c since, LastRecorded s id ts p c since →
    ∀ tr' y v', Runs World.Answers (sync s id l).run w tr' y v' → tr'.observed = p.trace.observed →
    ∀ k ∈ tr'.calls, k.writesMesh = false := by
  intro h
  let t := Taken.alone noMetrics stuckWorld .changed (evenLimiter 1 "1")
  let t' := Taken.alone noMetrics t.after .changed (evenLimiter 2 "2")
  have hist : History World.Answers noMetrics stuckWorld [t, t'] t'.after :=
    history_alone noMetrics stuckWorld [(.changed, evenLimiter 1 "1"),
      (.changed, evenLimiter 2 "2")]
  have hran : t.Ran World.Answers noMetrics := hist.ran t List.mem_cons_self
  -- the first pass succeeds, the second fails, and the third passes over what a full one would
  -- write
  obtain ⟨hfirst, hobserved, hsecond, hthird, hquiet, hsame, hsome⟩ :
      t.result.isOk = true ∧ t.trace.observed.isEmpty = false ∧ t'.result.isOk = false ∧
      ((reconcile noMetrics (evenLimiter 3 "1")).run.runAlone t'.after).1.isOk = true ∧
      (Trace.calls ((reconcile noMetrics (evenLimiter 3 "1")).run.traceAlone t'.after)).isEmpty =
        true ∧
      Trace.agree
        (Trace.observed ((sync noMetrics reviews (evenLimiter 3 "1")).run.traceAlone t'.after))
        t.trace.observed = true ∧
      ∃ k ∈ Trace.calls ((sync noMetrics reviews (evenLimiter 3 "1")).run.traceAlone t'.after),
        k.writesMesh = true := by decide +kernel
  obtain ⟨c, hc⟩ : ∃ c, t.Collects noMetrics reviews c :=
    hran.exists_collects sound_answers rfl hfirst hobserved
  obtain ⟨u, hok⟩ := exists_eq_ok_of_isOk hfirst
  obtain ⟨u', hskip⟩ := exists_eq_ok_of_isOk hthird
  have hrun := Program.runs_answers_runAlone (reconcile noMetrics (evenLimiter 3 "1")).run t'.after
  rw [hskip] at hrun
  have hlast : LastRecorded noMetrics reviews [t, t'] t c [t'] :=
    { split := ⟨[], rfl⟩
      result := hok
      collects := hc
      since := List.forall_mem_singleton.2 fun _ _ => exists_eq_error_of_isOk hsecond }
  have hnone := h noMetrics reviews (evenLimiter 3 "1") stuckWorld t'.after _ [t, t'] _ rfl hist
    (List.forall_mem_cons.2 ⟨rfl, List.forall_mem_singleton.2 rfl⟩) rfl hrun
    (List.isEmpty_iff.1 hquiet) t c [t'] hlast _ _ _
    (Program.runs_answers_runAlone (sync noMetrics reviews (evenLimiter 3 "1")).run t'.after)
    (Trace.eq_of_agree hsame)
  obtain ⟨k, hk, hwrites⟩ := hsome
  rw [hnone k hk] at hwrites
  cases hwrites

end MeshLimiter.Pass
