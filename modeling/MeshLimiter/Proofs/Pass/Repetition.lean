import MeshLimiter.Proofs.Compile.Shared
import MeshLimiter.Proofs.Pass.Skipping
/-!
# Passes that are repeated

A pass that succeeds leaves nothing to do for one that follows at once. Of the second pass one has
to know that it sees what the first one saw, and that the limiter comes back with the status that
the first one wrote. Then each part of it finds what it would bring about: the metrics that fail
again are kept once more, the registry has the entries of the service where a merge would put them,
the filters are as they are to be, and the status is the one that the limiter has.

* **`Pass.Accomplished`**: what a pass leaves behind that has nothing to do again;
* **`Pass.accomplished_of_runs`**: a pass that succeeds leaves nothing to do;
* **`Pass.Accomplished.quiet`**: a pass with nothing left to do writes nothing;
* **`Pass.repetition_quiet`**: both together;
* **`Pass.Accomplished.repeated`**: nor does any number of passes that follow.
-/

namespace MeshLimiter

open Program (Runs)

/-! ## What is written

The last status that was written is the one that the limiter comes back with. -/

namespace ClusterCall

/-- A call writes what the mesh goes by, or a status, or nothing. -/
theorem isWrite_eq_false {c : ClusterCall} (hmesh : c.writesMesh = false)
    (hstatus : c.concern ≠ .status) : c.isWrite = false := by
  cases c with
  | service | pods | filter | configMap => rfl
  | patchStatus => exact absurd rfl hstatus
  | _ => cases hmesh

end ClusterCall

/-- A call about a filter that has failed was answered with an error. -/
theorem Event.isError_of_isFailedFilterCall {event : Event} (h : event.isFailedFilterCall = true) :
    event.isError = true := by
  obtain ⟨a, r⟩ := event
  cases a with
  | call c =>
    have hr : c.isFailure r = true := (Bool.and_eq_true_iff.1 h).2
    cases r with
    | ok x =>
      rw [ClusterCall.isFailure_ok] at hr
      cases hr
    | error e => rfl
  | _ => cases h

/-- The status that was written. -/
def Event.status? : Event → Option LimiterStatus
  | ⟨.call (.patchStatus _ status), (r : Except ClusterError Unit)⟩ =>
    if r.isOk then some status else none
  | _ => none

theorem Event.isAbout_of_status? {event : Event} {status : LimiterStatus}
    (h : event.status? = some status) : event.isAbout .status = true := by
  obtain ⟨a, r⟩ := event
  cases a with
  | call c =>
    cases c with
    | patchStatus => rfl
    | _ => cases h
  | _ => cases h

/-- The status that was written last. -/
def Trace.lastStatus? (tr : Trace) : Option LimiterStatus :=
  (tr.filterMap Event.status?).getLast?

/-- Only the calls about the status matter. -/
theorem Trace.lastStatus?_about (tr : Trace) :
    Trace.lastStatus? (tr.about .status) = tr.lastStatus? := by
  unfold lastStatus? about
  rw [List.filterMap_filter]
  congr 2
  funext event
  cases hs : event.status? with
  | none => simp
  | some status => simp [Event.isAbout_of_status? hs]

/-- A limiter comes back from a pass with that trace: as it was, but for the status that was
written. -/
def Limiter.Echoes (l' l : Limiter) (tr : Trace) : Prop :=
  l'.spec = l.spec ∧ l'.status = tr.lastStatus?.or l.status

/-! ## What is seen again

Two passes that see the same service, subsets, pods and replies from the same entry collect the
same. -/

namespace MaterialStore

/-- Who sees the same again has the same in the entry again. -/
theorem seen_put_seen (m : MaterialStore) (s : Settings) (id : ResourceId) (subsets : List Subset)
    (pods : List Pod) (replies : List QueryReply) :
    ((m.entry id).2.put (m.entry id).1 (m.seen s id subsets pods replies)).seen s id subsets
      pods replies = m.seen s id subsets pods replies := by
  generalize hnew : m.seen s id subsets pods replies = new
  unfold seen
  rw [lookup?, find?_put_entry, Option.map_some, Option.getD_some]
  rcases get_put_cases (m.entry id).2 (m.entry id).1 new with hget | hsame
  · rw [hget, ← hnew]
    exact Entry.observe_observe ..
  · -- nothing could be put there, so the same is observed from the same start
    rw [hsame, get_entry, ← hnew]
    rfl

end MaterialStore

/-! ## The registry as it was written

The document that was written is read back as it was. -/

namespace Registry

variable {s : Settings} {service : ResourceId} {descriptors : List GlobalDescriptor} {r : Registry}

/-- A merge that is made again changes nothing more. -/
theorem merged_merged (h : ∀ d ∈ descriptors, d.belongsTo service = true) (domain : String) :
    (r.merged domain service descriptors).merged domain service descriptors
      = r.merged domain service descriptors := by
  have hnone : descriptors.filter (fun d => !d.belongsTo service) = [] := by
    rw [List.filter_eq_nil_iff]
    intro d hd
    simp [h d hd]
  simp [merged, List.filter_append, List.filter_filter, hnone]

/-- The registry that a merge comes to; none if it cannot be read. -/
def mergeResult? (s : Settings) (service : ResourceId) (descriptors : List GlobalDescriptor) :
    Option ConfigMap → Option Registry
  | none => some { domain := s.registryDomain, descriptors }
  | some m => (ofConfigMap? s m).map fun r => r.merged s.registryDomain service descriptors

/-- A registry that was written is right, if it stands under its own name and is read as it was
written. -/
theorem settled_after (hown : ∀ d ∈ descriptors, d.belongsTo service = true) {h : Held}
    (hname : ∀ m, h.configMaps[s.registry]? = some m → m.metadata.id = s.registry)
    (hback : ∀ r, mergeResult? s service descriptors h.configMaps[s.registry]? = some r →
      ofYaml? r.toYaml = some r)
    {k : ClusterCall} (hk : mergeWrite? s service descriptors h.configMaps[s.registry]? = some k)
    (version : String) :
    Settled s service descriptors (h.after version k).configMaps[s.registry]? := by
  cases hfound : h.configMaps[s.registry]? with
  | none =>
    -- a new registry has no entries but those of the service
    rw [hfound] at hk hback
    obtain rfl := Option.some.inj hk
    have hstored :
        (h.after version (.createConfigMap (firstOf s descriptors))).configMaps[s.registry]?
        = some ((firstOf s descriptors).atVersion version) := Std.ExtTreeMap.getElem?_insert_self
    have hread := ofConfigMap?_writtenInto (s := s) (hback _ rfl)
      { metadata := (firstOf s descriptors).metadata } version
    rw [hstored]
    exact ⟨_, hread, merged_merged (r := { domain := s.registryDomain }) hown s.registryDomain⟩
  | some m =>
    rw [hfound] at hk hback
    obtain ⟨r, hr, rfl⟩ := Option.map_eq_some_iff.1 hk
    -- the same object is replaced, so it is found again where it was
    have hmerged := hback (r.merged s.registryDomain service descriptors) (by
      rw [mergeResult?, hr]
      rfl)
    have hstored : (h.after version (.replaceConfigMap
        ((r.merged s.registryDomain service descriptors).writtenInto m))).configMaps[s.registry]?
        = some
          (((r.merged s.registryDomain service descriptors).writtenInto m).atVersion version) := by
      rw [← hname m hfound]
      exact Std.ExtTreeMap.getElem?_insert_self
    rw [hstored]
    exact ⟨_, ofConfigMap?_writtenInto hmerged m version, merged_merged hown _⟩

/-- A merge that has nothing to change succeeds if it is answered. -/
theorem ok_of_settled {R : Answering} (hR : R.Sound) {w w' : World} {tr : Trace}
    {y : Except PassError Bool} (h : Runs R (merge s service descriptors).run w tr y w')
    (hs : Settled s service descriptors w.held.configMaps[s.registry]?)
    (hanswered : ∀ event ∈ tr, event.isError = false) : ∃ b, y = .ok b := by
  obtain ⟨w₀, r, v, rest, hw₀, hget, rfl, hr⟩ := runs_merge h
  rcases hr with ⟨e, rfl, -⟩ | ⟨found, rfl, -, rfl, -⟩ | ⟨c, rfl, hc, -⟩ |
    ⟨found, c, rfl, hunsettled, -⟩
  · cases hanswered _ List.mem_cons_self
  · exact ⟨false, rfl⟩
  · -- what is settled can be read
    rw [← hw₀, ← (hR hget).configMap] at hs
    obtain ⟨m, hm, -⟩ := hs
    rw [hc] at hm
    cases hm
  · rw [← hw₀, ← (hR hget).configMap] at hs
    exact absurd hs hunsettled

end Registry

namespace Pass

variable {R : Answering} {s : Settings} {id : ResourceId} {l : Limiter} {c : Collected}
  {w w' : World} {tr : Trace} {y : Except PassError Unit}

/-! ## The status

It is written unless it is right already, and it is right once it was written. -/

/-- A status that the limiter has already is not written again. -/
theorem close_eq_conclude (h : l.status = some (statusOf (compiledOf s id l c) c.material))
    (registered : Except PassError Bool) (a : Applying) :
    close s id l c registered a = conclude id l c registered a := by
  unfold close
  rw [if_neg fun hne => hne h]

/-- A pass that succeeds leaves the limiter with the status that it comes to. -/
theorem lastStatus?_of_runs_close (hR : R.Sound) {registered : Except PassError Bool} {a : Applying}
    (h : Runs R (close s id l c registered a).run w tr (.ok ()) w') :
    tr.lastStatus?.or l.status = some (statusOf (compiledOf s id l c) c.material) := by
  obtain ⟨hevents, ⟨-, -, -, hwritten, -⟩ | ⟨⟨e, he⟩, -⟩⟩ := runs_close hR h
  · cases hlast : tr.lastStatus? with
    | some status =>
      obtain ⟨event, hevent, hstatus⟩ := List.mem_filterMap.1 (List.mem_of_getLast? hlast)
      rcases hevents event hevent with ⟨r, rfl⟩ | rfl
      · cases r with
        | ok u =>
          obtain rfl := Option.some.inj hstatus
          rfl
        | error e => cases hstatus
      · cases hstatus
    | none =>
      -- no status was written, so the limiter had the right one before
      refine Classical.byContradiction fun hne => ?_
      obtain ⟨hsome, hall⟩ := hwritten hne
      obtain ⟨event, hevent⟩ := List.exists_mem_of_ne_nil _ hsome
      obtain ⟨hmem, habout⟩ := List.mem_filter.1 hevent
      have hfailed := hall event hevent
      rcases hevents event hmem with ⟨r, rfl⟩ | rfl
      · cases r with
        | ok u =>
          have hnil := List.getLast?_eq_none_iff.1 hlast
          have hwrote : statusOf (compiledOf s id l c) c.material ∈ tr.filterMap Event.status? :=
            List.mem_filterMap.2 ⟨_, hmem, rfl⟩
          rw [hnil] at hwrote
          cases hwrote
        | error e => cases hfailed
      · cases habout
  · cases he

/-- The last part of a pass is what it does about the filters and the status. -/
theorem exists_close_of_runs (hR : R.Sound) (h : Runs R (bringAbout s id l c).run w tr y w') :
    ∃ (registered : Except PassError Bool) (a : Applying) (v : World) (tr' : Trace),
      Runs R (close s id l c registered a).run v tr' y w' ∧
      tr.about .status = tr'.about .status := by
  obtain ⟨registered, w₁, w₂, w₃, w₄, a, tr₁, tr₂, tr₃, hmerge, -, hall, -, hclose, rfl⟩ :=
    runs_bringAbout_cut hR h
  refine ⟨registered, a, w₄, tr₃, hclose, ?_⟩
  -- neither the merge nor the filters are about the status
  rw [Trace.about_append, Trace.about_cons_of_not rfl, Trace.about_append,
    Trace.about_cons_of_not rfl, Registry.about_of_runs_merge hmerge (k := .status) nofun,
    (eachApplied_of_runs hR (nodup_toList_desiredFilters ..) hall).about .status fun e _ => nofun,
    List.nil_append, List.nil_append]

/-- After a pass that succeeds the limiter has the status of what was compiled. -/
theorem lastStatus?_of_runs (hR : R.Sound) (h : Runs R (bringAbout s id l c).run w tr (.ok ()) w') :
    tr.lastStatus?.or l.status = some (statusOf (compiledOf s id l c) c.material) := by
  obtain ⟨registered, a, v, tr', hclose, habout⟩ := exists_close_of_runs hR h
  rw [← Trace.lastStatus?_about, habout, Trace.lastStatus?_about]
  exact lastStatus?_of_runs_close hR hclose

/-- A status that is right is not written. -/
theorem about_status_eq_nil (hR : R.Sound) (h : Runs R (bringAbout s id l c).run w tr y w')
    (hstatus : l.status = some (statusOf (compiledOf s id l c) c.material)) :
    tr.about .status = [] := by
  obtain ⟨registered, a, v, tr', hclose, habout⟩ := exists_close_of_runs hR h
  rw [close_eq_conclude hstatus] at hclose
  rw [habout]
  rcases runs_conclude hR hclose with ⟨-, -, -, rfl, -⟩ | ⟨-, -, rfl, -⟩ <;> rfl

/-! ## A pass with nothing to do

Each part of it finds what it would bring about, and takes no write. -/

/-- A pass that finds the registry and the status right succeeds if all its calls are answered. -/
theorem ok_of_answered (hR : R.Sound) (h : Runs R (bringAbout s id l c).run w tr y w')
    (hs : Registry.Settled s id (compiledOf s id l c).shared w.held.configMaps[s.registry]?)
    (hstatus : l.status = some (statusOf (compiledOf s id l c) c.material))
    (hanswered : ∀ event ∈ tr, event.isError = false) : y = .ok () := by
  obtain ⟨registered, w₁, w₂, w₃, w₄, a, tr₁, tr₂, tr₃, hmerge, -, hall, -, hclose, rfl⟩ :=
    runs_bringAbout_cut hR h
  obtain ⟨hanswered₁, hanswered₂⟩ := List.forall_mem_append.1 hanswered
  obtain ⟨b, rfl⟩ := Registry.ok_of_settled hR hmerge hs hanswered₁
  -- a filter that fails would show in the trace
  have hfailure : a.failure = none := by
    refine Classical.byContradiction fun hne => ?_
    rcases (allBroughtTo_of_runs hR (nodup_toList_desiredFilters ..) hall).failed hne with
      hfirst | ⟨event, hevent, hfailed⟩
    · exact hfirst rfl
    · have herror := Event.isError_of_isFailedFilterCall hfailed
      rw [hanswered₂ event (List.mem_cons_of_mem _ (List.mem_append_left _ hevent))] at herror
      cases herror
  rw [close_eq_conclude hstatus] at hclose
  rcases runs_conclude hR hclose with ⟨hy, -⟩ | ⟨-, ⟨e, he⟩ | hne, -⟩
  · exact hy
  · cases he
  · exact absurd hfailure hne

/-! ## Passes that see the same

What was collected is the same, and so is the material. -/

/-- A pass that looks at anything is over a limiter of interest. -/
theorem interest_of_runs_sync (hR : R.Sound) (h : Runs R (sync s id l).run w tr y w')
    (hseen : tr.observed ≠ []) : w.held.interest.contains id = true := by
  cases hinterest : w.held.interest.contains id with
  | true => rfl
  | false =>
    refine absurd ?_ hseen
    unfold sync at h
    obtain ⟨e, v₀, rest₀, hmake, rfl, h₁⟩ := Attempt.runs_step_bind.1 h
    obtain ⟨-, hv₀⟩ := (hR hmake).makeEntry
    obtain ⟨v₁, v', hv₁, hbody, -⟩ := Attempt.Runs.of_holding h₁
    obtain ⟨wanted, v₂, rest₂, hwanted, rfl, h₂⟩ := Attempt.runs_step_bind.1 hbody
    obtain ⟨current, v₃, rest₃, -, rfl, h₃⟩ := Attempt.runs_step_bind.1 h₂
    have hwanted : wanted = false := by
      rw [(hR hwanted).isInterested, hv₁, hv₀]
      exact hinterest
    subst hwanted
    rw [if_pos (by decide)] at h₃
    -- the entry is taken out again, and that is all
    have hrest : Trace.observed rest₃ = [] := by
      split at h₃
      · obtain ⟨u, v₄, rest₄, -, rfl, h₄⟩ := Attempt.runs_step_bind.1 h₃
        obtain ⟨rfl, -, -⟩ := Attempt.runs_pure.1 h₄
        rfl
      · obtain ⟨rfl, -, -⟩ := Attempt.runs_pure.1 h₃
        rfl
    exact hrest

/-- A pass that has seen all that it was to see goes on with that. -/
theorem runs_sync_complete (hR : R.Sound) {service : Service} {subsets : List Subset}
    {pods : List Pod}
    {replies : List QueryReply} (hfits : (Observation.complete service subsets pods replies).Fits)
    (h : Runs R (sync s id l).run w tr y w') (hinterest : w.held.interest.contains id = true)
    (hseen : tr.observed = (Observation.complete service subsets pods replies).events s id) :
    ∃ (v v' : World) (tr₁ tr₂ : Trace), tr = tr₁ ++ tr₂ ∧ Aside tr₁ ∧ tr₁.about .status = [] ∧
      v.held = { w.held with
        store := (w.held.store.entry id).2.put (w.held.store.entry id).1
          (w.held.store.seen s id subsets pods replies) } ∧
      Runs R (bringAbout s id l (.ofEntry (w.held.store.seen s id subsets pods replies) service
        subsets)).run v tr₂ y v' ∧
      w'.held = v'.held := by
  obtain ⟨o, v, tr₁, tr₂, hfits', rfl, hobserved, haside, habout, hrest⟩ := runs_sync hR h hinterest
  -- what comes behind the collection observes nothing, so the first part has seen all of it
  have hnone : tr₂.observed = [] := by
    rcases hrest with ⟨service', subsets', pods', replies', -, -, v', hbring, -⟩ | ⟨-, rfl, -⟩
    · exact observed_of_runs hR hbring
    · rfl
  rw [Trace.observed_append, hobserved, hnone, List.append_nil] at hseen
  obtain rfl := Observation.eq_of_events_eq hfits' hfits hseen
  rcases hrest with ⟨service', subsets', pods', replies', ho, hv, v', hbring, hw'⟩ | ⟨hne, -⟩
  · cases ho
    exact ⟨v, v', tr₁, tr₂, rfl, haside, habout .status nofun, hv, hbring, hw'⟩
  · exact absurd rfl (hne service subsets pods replies)

/-- A pass that has come to the registry has seen all that it sees. -/
theorem observed_take_of_runs (hR : R.Sound) (h : Runs R (sync s id l).run w tr y w')
    (hinterest : w.held.interest.contains id = true) {n : Nat}
    (hreached : Trace.about .registry (tr.take n) ≠ []) :
    tr.observed = Trace.observed (tr.take n) := by
  obtain ⟨o, v, tr₁, tr₂, -, rfl, -, -, habout, hrest⟩ := runs_sync hR h hinterest
  have hnone : tr₂.observed = [] := by
    rcases hrest with ⟨service, subsets, pods, replies, -, -, v', hbring, -⟩ | ⟨-, rfl, -⟩
    · exact observed_of_runs hR hbring
    · rfl
  rcases Nat.le_total n tr₁.length with hn | hn
  · -- the collection does not look at the registry
    rw [List.take_append_of_le_length hn] at hreached
    refine absurd (List.sublist_nil.1 ?_) hreached
    rw [← habout .registry nofun]
    exact (List.take_sublist n tr₁).filter _
  · have hbehind : Trace.observed (tr₂.take (n - tr₁.length)) = [] :=
      List.sublist_nil.1 (hnone ▸ (List.take_sublist _ tr₂).filter _)
    rw [List.take_append, List.take_of_length_le hn, Trace.observed_append,
      Trace.observed_append, hnone, hbehind]

/-! ## With nothing left to do

What a pass leaves behind has nothing to do again, and a pass that finds it so leaves it so. -/

/-- What a pass leaves behind that has nothing to do again: who sees the same service, subsets, pods
and replies brings the same material into the entry, and with it finds filters, registry and status
as they are to be. -/
structure Accomplished (s : Settings) (id : ResourceId) (l : Limiter) (service : Service)
    (subsets : List Subset) (pods : List Pod) (replies : List QueryReply) (h : Held) : Prop where
  interest : h.interest.contains id = true
  store : (h.store.entry id).2.put (h.store.entry id).1 (h.store.seen s id subsets pods replies)
    = h.store
  stands : Stands s id l (.ofEntry (h.store.seen s id subsets pods replies) service subsets) h
  status : l.status = some (statusOf
    (compiledOf s id l (.ofEntry (h.store.seen s id subsets pods replies) service subsets))
    (h.store.seen s id subsets pods replies).material)

variable {service : Service} {subsets : List Subset} {pods : List Pod} {replies : List QueryReply}

/-- The registry that a successful pass leaves is right. -/
theorem Effects.settled_after {h h' : Held} (he : Effects R s id l c h tr (.ok ()) h')
    (hname : ∀ m, h.configMaps[s.registry]? = some m → m.metadata.id = s.registry)
    (hback : (∃ k ∈ tr.calls, k.writesTexts = true) → ∀ r,
      Registry.mergeResult? s id (compiledOf s id l c).shared h.configMaps[s.registry]? = some r →
      Registry.ofYaml? r.toYaml = some r) :
    Registry.Settled s id (compiledOf s id l c).shared h'.configMaps[s.registry]? := by
  rcases he.registry rfl with ⟨hs, hsame⟩ | ⟨k, version, hk, hcall, hwritten⟩
  · rw [hsame]
    exact hs
  · rw [hwritten]
    exact Registry.settled_after (fun d hd => (generatedFor_of_mem_shared d hd).belongsTo) hname
      (hback ⟨k, hcall, Registry.writesTexts_of_mergeWrite? hk⟩) hk version

/-- A pass that succeeds leaves nothing to do for its limiter, once that comes back with its
status. -/
theorem accomplished_of_runs (hR : R.Sound) (hT : R.Truthful)
    (hfits : (Observation.complete service subsets pods replies).Fits)
    (h : Runs R (sync s id l).run w tr (.ok ()) w')
    (hseen : tr.observed = (Observation.complete service subsets pods replies).events s id)
    (hc : c = .ofEntry (w.held.store.seen s id subsets pods replies) service subsets)
    (hname : ∀ m, w.held.configMaps[s.registry]? = some m → m.metadata.id = s.registry)
    (hback : (∃ k ∈ tr.calls, k.writesTexts = true) → ∀ r,
      Registry.mergeResult? s id (compiledOf s id l c).shared
        w.held.configMaps[s.registry]? = some r →
      Registry.ofYaml? r.toYaml = some r)
    {l' : Limiter} (hecho : l'.Echoes l tr) :
    Accomplished s id l' service subsets pods replies w'.held := by
  subst hc
  have hne : tr.observed ≠ [] := by
    rw [hseen]
    exact List.cons_ne_nil _ _
  have hinterest := interest_of_runs_sync hR h hne
  obtain ⟨v, v', tr₁, tr₂, rfl, -, habout, hv, hbring, hw'⟩ :=
    runs_sync_complete hR hfits h hinterest hseen
  have heffects := effects_of_runs hR hbring
  have hmaps : v.held.configMaps = w.held.configMaps := by rw [hv]
  -- the second look is from the entry that the first one has filled
  have hstore : w'.held.store = (w.held.store.entry id).2.put (w.held.store.entry id).1
      (w.held.store.seen s id subsets pods replies) := by
    rw [hw', heffects.store, hv]
  have hagain : w'.held.store.seen s id subsets pods replies
      = w.held.store.seen s id subsets pods replies := by
    rw [hstore]
    exact MaterialStore.seen_put_seen ..
  have hstands := heffects.stands hT (heffects.settled_after (by rw [hmaps]; exact hname)
    (by
      rw [hmaps]
      rintro ⟨k, hk, hwrites⟩
      refine hback ⟨k, ?_, hwrites⟩
      rw [Trace.calls_append]
      exact List.mem_append_right _ hk))
  refine ⟨?_, ?_, ?_, ?_⟩
  · rw [hw', heffects.interest, hv]
    exact hinterest
  · rw [hagain, hstore, MaterialStore.entry_put_entry, MaterialStore.put_put]
  · rw [hagain, hw']
    exact (stands_congr hecho.1).2 hstands
  · have hlast : Trace.lastStatus? (tr₁ ++ tr₂) = tr₂.lastStatus? := by
      rw [← Trace.lastStatus?_about, Trace.about_append, habout, List.nil_append,
        Trace.lastStatus?_about]
    rw [hagain, hecho.2, hlast, lastStatus?_of_runs hR hbring, compiledOf_congr hecho.1]
    rfl

/-- A pass with nothing left to do goes on with what is held already. -/
theorem Accomplished.exists_bringAbout (hR : R.Sound)
    (hdone : Accomplished s id l service subsets pods replies w.held)
    (hfits : (Observation.complete service subsets pods replies).Fits)
    (h : Runs R (sync s id l).run w tr y w')
    (hseen : tr.observed = (Observation.complete service subsets pods replies).events s id) :
    ∃ (v v' : World) (tr₁ tr₂ : Trace), tr = tr₁ ++ tr₂ ∧ Aside tr₁ ∧ tr₁.about .status = [] ∧
      v.held = w.held ∧
      Runs R (bringAbout s id l (.ofEntry (w.held.store.seen s id subsets pods replies) service
        subsets)).run v tr₂ y v' ∧
      Effects R s id l (.ofEntry (w.held.store.seen s id subsets pods replies) service subsets)
        w.held tr₂ y w'.held := by
  obtain ⟨v, v', tr₁, tr₂, rfl, haside, habout, hv, hbring, hw'⟩ :=
    runs_sync_complete hR hfits h hdone.interest hseen
  -- tracking anew changes nothing when all of it is tracked
  rw [hdone.store] at hv
  have hv : v.held = w.held := hv
  have heffects := effects_of_runs hR hbring
  rw [hv, ← hw'] at heffects
  exact ⟨v, v', tr₁, tr₂, rfl, haside, habout, hv, hbring, heffects⟩

/-- A pass with nothing left to do that sees the same writes nothing. It fails only if a call fails,
and it leaves the materials as they are. -/
theorem Accomplished.quiet (hR : R.Sound)
    (hdone : Accomplished s id l service subsets pods replies w.held)
    (hfits : (Observation.complete service subsets pods replies).Fits)
    (h : Runs R (sync s id l).run w tr y w')
    (hseen : tr.observed = (Observation.complete service subsets pods replies).events s id) :
    (∀ k ∈ tr.calls, k.isWrite = false) ∧
    ((∀ event ∈ tr, event.isError = false) → y = .ok ()) ∧
    w'.held.store = w.held.store := by
  obtain ⟨v, v', tr₁, tr₂, rfl, haside, habout, hv, hbring, heffects⟩ :=
    hdone.exists_bringAbout hR hfits h hseen
  have hnone : Trace.about .status (tr₁ ++ tr₂) = [] := by
    rw [Trace.about_append, habout, about_status_eq_nil hR hbring hdone.status, List.nil_append]
  -- no write; no error but one that was answered; and the store as it was
  refine ⟨?_, ?_, heffects.store⟩
  · intro k hk
    refine ClusterCall.isWrite_eq_false ?_ (Trace.concern_ne_of_about_eq_nil hnone k hk)
    rw [Trace.calls_append] at hk
    -- what is looked at before the work is no write
    rcases List.mem_append.1 hk with hk | hk
    · exact (haside k hk).2
    · exact heffects.settled hdone.stands k hk
  · intro hanswered
    refine ok_of_answered hR hbring ?_ hdone.status (List.forall_mem_append.1 hanswered).2
    rw [hv]
    exact hdone.stands.registered

/-- If it succeeds, nothing is left to do after it either. -/
theorem Accomplished.again (hR : R.Sound) (hT : R.Truthful)
    (hdone : Accomplished s id l service subsets pods replies w.held)
    (hfits : (Observation.complete service subsets pods replies).Fits)
    (h : Runs R (sync s id l).run w tr (.ok ()) w')
    (hseen : tr.observed = (Observation.complete service subsets pods replies).events s id) :
    Accomplished s id l service subsets pods replies w'.held := by
  obtain ⟨v, v', tr₁, tr₂, rfl, -, -, -, -, heffects⟩ := hdone.exists_bringAbout hR hfits h hseen
  have hregistered := hdone.stands.registered
  rw [← (heffects.quiet hregistered).2] at hregistered
  exact
    { interest := by rw [heffects.interest]; exact hdone.interest
      store := by rw [heffects.store]; exact hdone.store
      stands := by rw [heffects.store]; exact heffects.stands hT hregistered
      status := by rw [heffects.store]; exact hdone.status }

/-- A pass was taken in full. -/
def Taken.Syncs (R : Answering) (s : Settings) (id : ResourceId) (t : Taken) : Prop :=
  Runs R (sync s id t.limiter).run t.before t.trace t.result t.after

/-- **A pass that is repeated at once writes nothing.** Let a pass collect metrics and succeed. Let
the registry be kept under its own name, and if the pass writes it, let its document be read as it
was written. Then a second pass that starts from what the first one has left, over the limiter with
the status that was written, and that sees the same service, subsets, pods and replies, writes no
filter, no registry and no status. It succeeds unless one of its calls fails, and it leaves all
materials with their revisions. -/
theorem repetition_quiet (hR : R.Sound) (hT : R.Truthful) {p t : Taken} (first : p.Syncs R s id)
    (reached : p.Collects s id c) (ok : p.result = .ok ())
    (named : ∀ m, p.before.held.configMaps[s.registry]? = some m → m.metadata.id = s.registry)
    (readBack : (∃ k ∈ p.trace.calls, k.writesTexts = true) → ∀ r, Registry.mergeResult? s id
      (compiledOf s id p.limiter c).shared p.before.held.configMaps[s.registry]? = some r →
      Registry.ofYaml? r.toYaml = some r)
    (second : t.Syncs R s id) (atOnce : t.before.held = p.after.held)
    (echo : t.limiter.Echoes p.limiter p.trace) (same : t.trace.observed = p.trace.observed) :
    (∀ k ∈ t.trace.calls, k.isWrite = false) ∧
    ((∀ event ∈ t.trace, event.isError = false) → t.result = .ok ()) ∧
    t.after.held.store = p.after.held.store := by
  obtain ⟨service, subsets, pods, replies, hfits, hseen, hc⟩ := reached
  unfold Taken.Syncs at first
  rw [ok] at first
  have hdone := accomplished_of_runs hR hT hfits first hseen hc named readBack echo
  rw [← atOnce] at hdone ⊢
  exact hdone.quiet hR hfits second (same.trans hseen)

/-- Full passes over a limiter that follow on one another, each of which sees the same and has all
its calls answered; what is held before them and after them. -/
inductive Repeated (R : Answering) (s : Settings) (id : ResourceId) (l : Limiter) (seen : Trace)
    (h : Held) : List Taken → Held → Prop where
  | none : Repeated R s id l seen h [] h
  | snoc {ts : List Taken} {t : Taken} (prior : Repeated R s id l seen h ts t.before.held)
    (full : t.Syncs R s id) (limiter : t.limiter = l) (same : t.trace.observed = seen)
    (answered : ∀ event ∈ t.trace, event.isError = false) :
    Repeated R s id l seen h (ts ++ [t]) t.after.held

/-- However often a pass with nothing left to do is repeated, it succeeds and writes nothing. -/
theorem Accomplished.repeated (hR : R.Sound) (hT : R.Truthful) {h h' : Held} {ts : List Taken}
    (hdone : Accomplished s id l service subsets pods replies h)
    (hfits : (Observation.complete service subsets pods replies).Fits)
    (hts : Repeated R s id l ((Observation.complete service subsets pods replies).events s id) h ts
      h') :
    (∀ t ∈ ts, t.result = .ok () ∧ ∀ k ∈ t.trace.calls, k.isWrite = false) ∧
    h'.store = h.store ∧ Accomplished s id l service subsets pods replies h' := by
  induction hts with
  | none => exact ⟨List.forall_mem_nil _, rfl, hdone⟩
  | @snoc ts t _ full limiter same answered ih =>
    -- each repetition leaves all accomplished for the next
    obtain ⟨hall, hstore, hbefore⟩ := ih
    unfold Taken.Syncs at full
    rw [limiter] at full
    obtain ⟨hcalls, hsucceeds, hkept⟩ := hbefore.quiet hR hfits full same
    have hok := hsucceeds answered
    rw [hok] at full
    refine ⟨?_, hkept.trans hstore, hbefore.again hR hT hfits full same⟩
    exact List.forall_mem_append.2 ⟨hall, List.forall_mem_singleton.2 ⟨hok, hcalls⟩⟩

/-- A full pass that is taken with no other program beside it. -/
def Taken.syncAlone (s : Settings) (id : ResourceId) (w : World) (l : Limiter) : Taken :=
  { occasion := .changed
    limiter := l
    before := w
    trace := (sync s id l).run.traceAlone w
    result := ((sync s id l).run.runAlone w).1
    after := ((sync s id l).run.runAlone w).2 }

/-- So does a pass that is alone, where nothing is denied. -/
theorem Taken.syncs_syncAlone {w : World} (hw : w.DeniesNothing) (s : Settings) (id : ResourceId)
    (l : Limiter) : (syncAlone s id w l).Syncs World.AnswersTruly s id ∧
      (syncAlone s id w l).after.DeniesNothing :=
  Program.runs_runAlone World.answersTruly_perform (fun _ _ h => h) _ hw

/-- A limiter with a rule that the shared service counts. -/
def sharedLimiter : Limiter :=
  let rule : Descriptor :=
    { action := some { quota := "7", fillInterval := { seconds := 60 }, strategy := .shared } }
  { reviewsLimiter 1 [] with
    spec := { sets := (∅ : Std.ExtTreeMap String (List Descriptor)).insert "v1" [rule] } }

/-- The service is of interest. -/
def interestedWorld : World :=
  { reviewsWorld [] with indexes := ((reviewsWorld []).indexes.addInterest reviews).2 }

/-- The registry that its entry makes. -/
def sharedRegistry : Registry :=
  { domain := noMetrics.registryDomain
    descriptors := [
      { key := "generic_key"
        value := "Service[reviews.default]-User[none]-Id[9426605446700680600]"
        rateLimit := { requestsPerUnit := 7, unit := .minute } }] }

theorem read_sharedRegistry : Registry.ofYaml? sharedRegistry.toYaml = some sharedRegistry := by
  have htext : sharedRegistry.toYaml = "domain: default\n" ++
      "descriptors:\n" ++
      "- key: generic_key\n" ++
      "  value: Service[reviews.default]-User[none]-Id[9426605446700680600]\n" ++
      "  rate_limit:\n" ++
      "    requests_per_unit: 7\n" ++
      "    unit: MINUTE\n" := by decide +kernel
  rw [htext]
  -- the characters are given to the reader one by one, since it takes long to find them in the text
  simp only [Registry.ofYaml?, Yaml.Node.ofText?, Yaml.Token.ofText?, String.toList_append,
    String.reduceToList]
  decide +kernel

/-- The first pass creates the registry and a filter, and writes the status; the second one does
nothing. -/
theorem repetition_quiet_sharedLimit :
    let p := Taken.syncAlone noMetrics reviews interestedWorld sharedLimiter
    let t := Taken.syncAlone noMetrics reviews p.after
      { sharedLimiter with status := p.trace.lastStatus?.or sharedLimiter.status }
    ((∃ k ∈ p.trace.calls, k.writesTexts = true) ∧ p.trace.lastStatus?.isSome = true ∧
      p.result = .ok ()) ∧
    (∀ k ∈ t.trace.calls, k.isWrite = false) ∧ t.result = .ok () ∧
    t.after.held.store = p.after.held.store := by
  intro p t
  have hfine : interestedWorld.DeniesNothing := nofun
  obtain ⟨first, hdenies⟩ := Taken.syncs_syncAlone hfine noMetrics reviews sharedLimiter
  obtain ⟨second, -⟩ := Taken.syncs_syncAlone hdenies noMetrics reviews t.limiter
  let subsets : List Subset := [{ name := "v1" }, { name := "v2" }]
  let c : Collected := .ofEntry (p.before.held.store.seen noMetrics reviews subsets [] [])
    {} subsets
  have hc : p.Collects noMetrics reviews c :=
    ⟨{}, subsets, [], [], fun _ => rfl, Trace.eq_of_agree (by decide +kernel), rfl⟩
  obtain ⟨hok, hwrites, hstatus, hnew, hcalm⟩ :
      p.result.isOk = true ∧ (∃ k ∈ p.trace.calls, k.writesTexts = true) ∧
      p.trace.lastStatus?.isSome = true ∧
      p.before.held.configMaps[noMetrics.registry]?.isNone = true ∧
      p.after.faults.isEmpty = true := by
    decide +kernel
  have hmerged : Registry.mergeResult? noMetrics reviews
      (compiledOf noMetrics reviews p.limiter c).shared none = some sharedRegistry := by
    decide +kernel
  -- the second pass is followed up to the registry, whose text would take long to read again
  obtain ⟨hinterest, hreached, hsame⟩ : t.before.held.interest.contains reviews = true ∧
      (Trace.about .registry (t.trace.take 11)).isEmpty = false ∧
      Trace.agree (Trace.observed (t.trace.take 11)) p.trace.observed = true := by
    decide +kernel
  have hseen := observed_take_of_runs sound_answersTruly second hinterest
    (List.isEmpty_eq_false_iff.1 hreached)
  obtain ⟨u, hok⟩ := exists_eq_ok_of_isOk hok
  have hnone := Option.isNone_iff_eq_none.1 hnew
  obtain ⟨hquiet, hsucceeds, hstore⟩ := repetition_quiet sound_answersTruly truthful_answersTruly
    first hc hok (by rw [hnone]; exact nofun)
    (fun _ r hr => by
      rw [hnone, hmerged] at hr
      obtain rfl := Option.some.inj hr
      exact read_sharedRegistry)
    second rfl ⟨rfl, rfl⟩ (hseen.trans (Trace.eq_of_agree hsame))
  have hanswered := Program.answered_traceAlone _ (List.isEmpty_iff.1 hcalm) hquiet
  exact ⟨⟨hwrites, hstatus, hok⟩, hquiet, hsucceeds hanswered, hstore⟩

end Pass

end MeshLimiter
