import MeshLimiter.Proofs.Compile.Subsets
import MeshLimiter.Proofs.Pass.Commands
import MeshLimiter.Proofs.Pass.Repetition
/-!
# Limiters that set nothing

A limiter that sets nothing is invalid. When it changes, the pass refuses it and touches nothing. A
pass over its metrics does not look: where the limiter is still of interest from an earlier
specification that was valid, it is applied like any other, and all that was written for it is taken
away.

* **`Pass.Session`**: passes and deletions, one after another;
* **`Pass.Session.wanted`**: interest goes back to a pass over a limiter that set something;
* **`Pass.NothingLeft`**: there is nothing to take away, and nothing to note;
* **`Pass.invalid_applied_iff`**: when a limiter that sets nothing is left alone.
-/

namespace MeshLimiter

open Program (Runs)

/-- Only the interest in a limiter itself is gained, and only by the step for it. -/
theorem World.Answers.interest_of_gained {w w' : World} {a : Step} {r : a.Reply} {id : ResourceId}
    (h : w.Answers a r w') (ha : ∀ k, a ≠ .addInterest k)
    (hid : w'.held.interest.contains id = true) :
    w.held.interest.contains id = true := by
  -- only one kind of step adds interest; the others keep it or take it away
  cases a with
  | call c =>
    rcases h.call with ⟨-, hheld⟩ | ⟨version, hheld⟩
    · rwa [hheld] at hid
    · rw [hheld] at hid
      cases c <;> exact hid
  | addInterest k => exact absurd rfl (ha k)
  | dropInterest k =>
    rw [h.dropInterest, Std.ExtTreeSet.contains_erase, Bool.and_eq_true] at hid
    exact hid.2
  | sendQueries texts =>
    rwa [h.held_of_isQuiet rfl] at hid
  | tryPop name | push name k | finish name k =>
    cases h with
    | performed held =>
      rw [← held]
      cases name <;> exact hid
  | _ =>
    cases h with
    | performed held =>
      rw [← held]
      exact hid

/-- A program that never adds interest leaves no more than there was. -/
theorem Program.Runs.interest_of_takes {R : Answering} (hR : R.Sound) {α : Type} {p : Program α}
    {w w' : World} {tr : Trace} {x : α} {id : ResourceId} (h : Runs R p w tr x w')
    (hp : p.Takes fun c => ∀ k, c ≠ .step (.addInterest k))
    (hid : w'.held.interest.contains id = true) : w.held.interest.contains id = true := by
  induction h with
  | done => exact hid
  | step answer _ ih =>
    exact (hR answer).interest_of_gained (fun k hk => hp.1 k (congrArg Command.step hk))
      (ih (hp.2 _) hid)
  | wait _ held _ ih =>
    rw [← held]
    exact ih (hp.2 _) hid

namespace ClusterCall

theorem writesMesh_of_isWrite {c : ClusterCall} (h : c.isWrite = false) : c.writesMesh = false := by
  cases c with
  | service | pods | filter | configMap => rfl
  | _ => cases h

/-- A call about the status writes it. -/
theorem isWrite_of_status {c : ClusterCall} (h : c.concern = .status) : c.isWrite = true := by
  cases c with
  | patchStatus => rfl
  | _ => cases h

end ClusterCall

namespace Pass

variable {R : Answering} {s : Settings} {id : ResourceId} {l : Limiter} {c : Collected} {h : Held}
  {w₀ w w' : World} {tr : Trace} {y : Except PassError Unit}

/-! ## What is done first

The name of a limiter is checked before anything else, and then, if it has changed, whether it sets
anything. -/

/-- A limiter without a right name gets no further. -/
theorem runs_keyOf_of_error {f : ResourceId → Attempt PassError Unit} {e : PassError}
    (hkey : keyOf l = .error e)
    (hrun : Runs R (ExceptT.mk (pure (keyOf l)) >>= f : Attempt PassError Unit).run w tr y w') :
    y = .error e ∧ tr = [] ∧ w' = w := by
  rcases Attempt.runs_bind.1 hrun with ⟨tr₁, id', v, tr₂, hid, -, -⟩ | ⟨e', hid, rfl⟩
  · obtain ⟨-, hok, -⟩ := Program.runs_done.1 hid
    rw [hkey] at hok
    cases hok
  · obtain ⟨rfl, hok, rfl⟩ := Program.runs_done.1 hid
    rw [hkey] at hok
    obtain rfl := Except.error.inj hok
    exact ⟨rfl, rfl, rfl⟩

/-- A limiter without a namespace is refused by every pass. -/
theorem runs_passFor_of_error {o : Occasion} {e : PassError} (hkey : keyOf l = .error e)
    (hrun : Runs R (passFor s o l).run w tr y w') : y = .error e ∧ tr = [] ∧ w' = w := by
  cases o with
  | changed => exact runs_keyOf_of_error hkey hrun
  | metrics => exact runs_keyOf_of_error hkey hrun

/-- **A change to a limiter that sets nothing is refused**, and that it was is all that is
counted. -/
theorem runs_reconcile_of_noSets (hR : R.Sound) (hkey : keyOf l = .ok id)
    (hinvalid : l.spec.sets.isEmpty = true) (hrun : Runs R (reconcile s l).run w tr y w') :
    y = .error (.invalidLimiter id .noSets) ∧ tr = [⟨.count (.pass .spec .error), ()⟩] ∧
      w'.held = w.held := by
  unfold reconcile at hrun
  rcases Attempt.runs_bind.1 hrun with ⟨tr₁, id', v, tr₂, hid, h₁, rfl⟩ | ⟨e, hid, rfl⟩
  · -- the name is right, so the next check fails
    obtain ⟨rfl, hok, rfl⟩ := Program.runs_done.1 hid
    rw [hkey] at hok
    obtain rfl := Except.ok.inj hok
    dsimp only at h₁
    rw [if_pos hinvalid] at h₁
    obtain ⟨v₁, rest, hcount, rfl, hthrow⟩ := Attempt.runs_count_bind.1 h₁
    obtain ⟨rfl, rfl, rfl⟩ := Attempt.runs_throw_bind.1 hthrow
    exact ⟨rfl, rfl, (hR hcount).held_of_isQuiet rfl⟩
  · -- the name is right
    obtain ⟨-, hok, -⟩ := Program.runs_done.1 hid
    rw [hkey] at hok
    cases hok

/-! ## Where interest comes from

A pass over a limiter that sets something adds interest, and only a deletion takes it away. -/

/-- A pass or a deletion. -/
inductive Served where
  | pass (t : Taken)
  | deletion (id : ResourceId)

/-- The passes and deletions since a world, one after another, and the world after them. -/
inductive Session (R : Answering) (s : Settings) (w₀ : World) : List Served → World → Prop where
  | start : Session R s w₀ [] w₀
  | pass {ts : List Served} {t : Taken} (prior : Session R s w₀ ts t.before) (ran : t.Ran R s) :
    Session R s w₀ (ts ++ [.pass t]) t.after
  | deletion {ts : List Served} {id : ResourceId} {w w' : World} {tr : Trace}
    {y : Except PassError Unit} (prior : Session R s w₀ ts w)
      (ran : Runs R (delete s id).run w tr y w') :
    Session R s w₀ (ts ++ [.deletion id]) w'

/-- A history of passes is a session without deletions. -/
theorem History.session {ts : List Taken} (h : History R s w₀ ts w) :
    Session R s w₀ (ts.map .pass) w := by
  induction h with
  | start => exact .start
  | snoc _ ran ih =>
    rw [List.map_append]
    exact .pass ih ran

/-- Since the limiter was last deleted it has changed to one that set something. -/
def WantedSince (ts : List Served) (id : ResourceId) : Prop :=
  ∃ before p since, ts = before ++ .pass p :: since ∧ p.occasion = .changed ∧
    keyOf p.limiter = .ok id ∧ p.limiter.spec.sets.isEmpty = false ∧ ∀ x ∈ since, x ≠ .deletion id

theorem WantedSince.snoc {ts : List Served} (h : WantedSince ts id) {x : Served}
    (hx : x ≠ .deletion id) : WantedSince (ts ++ [x]) id := by
  obtain ⟨before, p, since, rfl, hp, hkey, hsets, hsince⟩ := h
  exact ⟨before, p, since ++ [x], by simp, hp, hkey, hsets,
    List.forall_mem_append.2 ⟨hsince, List.forall_mem_singleton.2 hx⟩⟩

/-- A pass makes a limiter of interest only if it is one that has changed and sets something. -/
theorem Taken.Ran.gained (hR : R.Sound) {t : Taken} (ht : t.Ran R s)
    (hid : t.after.held.interest.contains id = true) : t.before.held.interest.contains id = true ∨
      t.occasion = .changed ∧ keyOf t.limiter = .ok id ∧ t.limiter.spec.sets.isEmpty = false := by
  cases hkey : keyOf t.limiter with
  | error e =>
    rw [(runs_passFor_of_error hkey ht).2.2] at hid
    exact .inl hid
  | ok k =>
    -- whatever becomes of the pass, at most the limiter itself has become of interest
    have hcourse : t.before.held.interest.contains id = true ∨ k = id := by
      have hinsert : (t.before.held.interest.insert k).contains id = true →
          t.before.held.interest.contains id = true ∨ k = id := by
        intro hid
        rw [Std.ExtTreeSet.contains_insert, Bool.or_eq_true, beq_iff_eq,
          Std.LawfulEqCmp.compare_eq_iff_eq] at hid
        exact hid.symm
      cases ht.course hR hkey with
      | idle held _ _ => exact .inl (held ▸ hid)
      | blind _ _ _ held => exact hinsert (by rw [held] at hid; exact hid)
      | seen _ _ _ _ _ effects => exact hinsert (by rw [effects.interest] at hid; exact hid)
    rcases hcourse with hbefore | rfl
    · exact .inl hbefore
    · obtain ⟨occasion, l, before, tr, y, after⟩ := t
      cases occasion with
      | metrics =>
        rcases runs_refresh hR hkey ht with ⟨-, -, hheld, -⟩ | ⟨hinterest, -⟩
        · exact .inl (hheld ▸ hid)
        · exact .inl hinterest
      | changed =>
        cases hsets : l.spec.sets.isEmpty with
        | false => exact .inr ⟨rfl, rfl, rfl⟩
        | true =>
          have hheld : after.held = before.held := (runs_reconcile_of_noSets hR hkey hsets ht).2.2
          exact .inl (hheld ▸ hid)

/-- A deletion leaves its limiter without interest, and brings none in others. -/
theorem interest_of_runs_delete (hR : R.Sound) {k : ResourceId}
    (hrun : Runs R (delete s k).run w tr y w') (hid : w'.held.interest.contains id = true) :
    w.held.interest.contains id = true ∧ k ≠ id := by
  have htakes : (delete s k).run.Takes fun c => ∀ k, c ≠ .step (.addInterest k) :=
    (takes_delete s k).mono fun c hc k hk => by
      subst hk
      cases hc with
      | merges h => cases h
  unfold delete at hrun htakes
  -- the interest is dropped first, and nothing that follows adds any
  obtain ⟨u, v, rest, hdrop, rfl, hrest⟩ := Attempt.runs_step_bind.1 hrun
  have hbefore := hrest.interest_of_takes hR (htakes.2 u) hid
  rw [(hR hdrop).dropInterest, Std.ExtTreeSet.contains_erase, Bool.and_eq_true] at hbefore
  exact ⟨hbefore.2, by simpa using hbefore.1⟩

/-- **Interest goes back to a valid limiter**: one that set something, and was not deleted since. -/
theorem Session.wanted (hR : R.Sound) (hstart : w₀.held.interest = ∅) {ts : List Served}
    (session : Session R s w₀ ts w) (hid : w.held.interest.contains id = true) :
    WantedSince ts id := by
  induction session with
  | start =>
    rw [hstart] at hid
    exact absurd (Std.ExtTreeSet.contains_iff_mem.1 hid) Std.ExtTreeSet.not_mem_empty
  | @pass ts t prior ran ih =>
    -- the interest was there before, or this is the pass it goes back to
    rcases ran.gained hR hid with hbefore | ⟨hoccasion, hkey, hsets⟩
    · exact (ih hbefore).snoc nofun
    · exact ⟨ts, t, [], rfl, hoccasion, hkey, hsets, List.forall_mem_nil _⟩
  | deletion _ ran ih =>
    obtain ⟨hbefore, hne⟩ := interest_of_runs_delete hR ran hid
    exact (ih hbefore).snoc fun heq => hne (Served.deletion.inj heq)

theorem Session.of_mem {ts : List Served} (session : Session R s w₀ ts w)
    {before behind : List Served}
    {t : Taken} (hsplit : ts = before ++ .pass t :: behind) :
    Session R s w₀ before t.before ∧ t.Ran R s := by
  induction session generalizing behind with
  | start => simp at hsplit
  | @pass ts p prior ran ih =>
    rcases List.eq_nil_or_concat behind with rfl | ⟨behind, last, rfl⟩
    · -- it is the last pass
      obtain ⟨rfl, hlast⟩ := List.append_inj' hsplit rfl
      obtain rfl := Served.pass.inj (List.singleton_inj.1 hlast)
      exact ⟨prior, ran⟩
    · rw [List.concat_eq_append, ← List.cons_append, ← List.append_assoc] at hsplit
      exact ih (List.append_inj' hsplit rfl).1
  | deletion prior ran ih =>
    rcases List.eq_nil_or_concat behind with rfl | ⟨behind, last, rfl⟩
    · cases List.singleton_inj.1 (List.append_inj' hsplit rfl).2
    · rw [List.concat_eq_append, ← List.cons_append, ← List.append_assoc] at hsplit
      exact ih (List.append_inj' hsplit rfl).1

/-! ## What a limiter that sets nothing comes to

It compiles to no filter and no entry. All that is left to do is to take away what was written. -/

/-- The subsets for which a limiter that sets nothing is to have no filter: all that are known, and
those that had one written. -/
def Cleared (c : Collected) (h : Held) (id : ResourceId) (n : String) : Prop :=
  n = Subset.baseName ∨ n ∈ c.subsets.map (·.name) ∨ n ∈ h.written.getD id ∅

/-- Every subset that is known or noted is to have no filter. -/
theorem mem_desiredOf_of_noSets (hinvalid : l.spec.sets.isEmpty = true) {n : String}
    {v : Option FilterSpec} :
    (n, v) ∈ desiredOf s id l c (h.written.getD id ∅) ↔ v = none ∧ Cleared c h id n := by
  unfold desiredOf compiledOf
  rw [mem_toList_desiredFilters, getElem?_filters_of_noSets hinvalid]
  constructor
  · rintro (⟨rfl, hknown⟩ | ⟨-, rfl, hwritten, -⟩)
    · exact ⟨rfl, hknown.imp_right .inl⟩
    · exact ⟨rfl, .inr (.inr hwritten)⟩
  · rintro ⟨rfl, hcleared⟩
    by_cases hknown : n = Subset.baseName ∨ n ∈ c.subsets.map (·.name)
    · exact .inl ⟨rfl, hknown⟩
    · -- a subset that is not known any more had a filter written
      have hwritten := (hcleared.imp_right fun h => h).elim
        (fun h => absurd (.inl h) hknown) fun h =>
        h.resolve_left fun h => hknown (.inr h)
      refine .inr ⟨?_, rfl, hwritten, ?_⟩
      · rw [← Option.not_isSome_iff_eq_none, ← Std.ExtTreeMap.mem_iff_isSome_getElem?,
          mem_filters_compile]
        exact hknown
      · rw [not_or] at hknown
        unfold isStray
        simp only [Bool.and_eq_true, bne_iff_ne, List.all_eq_true]
        exact ⟨hknown.1, fun s hs hn => hknown.2 (List.mem_map.2 ⟨s, hs, hn⟩)⟩

/-- Nothing of the limiter is left to take away, and nothing to note: the registry has no entry of
it, no subset has a filter, the status says that nothing is in force, and it is noted as applied. -/
structure NothingLeft (s : Settings) (id : ResourceId) (l : Limiter) (c : Collected) (h : Held) :
    Prop where
  registry : Registry.Settled s id [] h.configMaps[s.registry]?
  filters : ∀ n, Cleared c h id n → h.filters[filterPlace id n]? = none
  status : l.status = some { metrics := c.material.values }
  applied : h.applied[id]? = some (appliedOf l c)

/-- What it is compiled to stands if nothing of it is left. -/
theorem stands_iff_of_noSets (hinvalid : l.spec.sets.isEmpty = true) : Stands s id l c h ↔
    Registry.Settled s id [] h.configMaps[s.registry]? ∧
      ∀ n, Cleared c h id n → h.filters[filterPlace id n]? = none := by
  have hshared : (compiledOf s id l c).shared = [] := shared_of_noSets hinvalid
  constructor
  · intro hs
    refine ⟨hshared ▸ hs.registered, fun n hn => ?_⟩
    exact Option.map_eq_none_iff.1 (hs.filters (n, none)
      ((mem_desiredOf_of_noSets hinvalid).2 ⟨rfl, hn⟩))
  · rintro ⟨hregistered, hfilters⟩
    refine ⟨hshared ▸ hregistered, ?_⟩
    rintro ⟨n, v⟩ hmem
    obtain ⟨rfl, hn⟩ := (mem_desiredOf_of_noSets hinvalid).1 hmem
    exact Option.map_eq_none_iff.2 (hfilters n hn)

/-- The status has the metrics, and no rules. -/
theorem statusOf_of_noSets (hinvalid : l.spec.sets.isEmpty = true) :
    statusOf (compiledOf s id l c) c.material = { metrics := c.material.values } := by
  have hinForce : (compiledOf s id l c).inForce = ∅ := inForce_of_noSets hinvalid
  rw [statusOf, hinForce]

namespace Taken

variable {t : Taken}

/-- A pass writes no filter, no registry and no status, and leaves what is noted as applied. -/
structure LeavesAlone (t : Taken) : Prop where
  calls : ∀ k ∈ t.trace.calls, k.isWrite = false
  applied : t.after.held.applied = t.before.held.applied

/-- A pass leaves the status alone if that is already what comes of any metrics it may have
collected. -/
theorem about_status_of_within (hR : R.Sound)
    (hwithin : Within R s id t.limiter
      { t.before.held with interest := t.before.held.interest.insert id } t.trace t.result t.after)
    (hstatus : ∀ c, t.Collects s id c →
      t.limiter.status = some (statusOf (compiledOf s id t.limiter c) c.material)) :
    t.trace.about .status = [] := by
  obtain ⟨v, v', before, tr₁, behind, hv, hsync, -, htrace, hbc, hbo, hac, hao⟩ := hwithin
  have hinterest : v.held.interest.contains id = true := by
    rw [hv]
    exact Std.ExtTreeSet.contains_insert_self
  obtain ⟨o, v₁, trₒ, trᵣ, hfits, rfl, hobserved, -, habout, hrest⟩ := runs_sync hR hsync hinterest
  have hrest : Trace.about .status trᵣ = [] := by
    rcases hrest with ⟨service, subsets, pods, replies, rfl, -, v₂, hbring, -⟩ | ⟨-, rfl, -⟩
    · -- with the metrics that were collected, the status comes to what the limiter has already
      rw [hv] at hbring
      refine about_status_eq_nil hR hbring
        (hstatus _ ⟨service, subsets, pods, replies, hfits, ?_, rfl⟩)
      rw [htrace]
      simp [hbo, hao, hobserved, observed_of_runs hR hbring]
    · rfl
  have hbefore : before.about .status = [] := Trace.about_eq_nil_of_calls (by simp [hbc])
  have hbehind : behind.about .status = [] := Trace.about_eq_nil_of_calls (by simp [hac])
  rw [htrace]
  simp [hbefore, hbehind, habout .status nofun, hrest]

/-- Who does nothing leaves everything alone. -/
theorem leavesAlone_of_idle (hheld : t.after.held = t.before.held) (hcalls : t.trace.calls = []) :
    t.LeavesAlone where
  calls k hk := by
    rw [hcalls] at hk
    cases hk
  applied := by rw [hheld]

/-- So does a pass over a limiter without a right name. -/
theorem leavesAlone_of_error {e : PassError} (hkey : keyOf t.limiter = .error e) (ht : t.Ran R s) :
    t.LeavesAlone := by
  obtain ⟨-, htrace, hafter⟩ := runs_passFor_of_error hkey ht
  exact leavesAlone_of_idle (by rw [hafter]) (by rw [htrace]; rfl)

/-- Where nothing is left, a pass finds nothing to do. -/
theorem leavesAlone_of_nothingLeft {h : Held}
    (hinvalid : t.limiter.spec.sets.isEmpty = true)
    (heffects : Effects R s id t.limiter c h t.trace t.result t.after.held)
    (habout : t.trace.about .status = []) (hbefore : h.applied = t.before.held.applied)
    (hleft : NothingLeft s id t.limiter c h) : t.LeavesAlone where
  calls k hk := by
    have hstands := (stands_iff_of_noSets hinvalid).2 ⟨hleft.registry, hleft.filters⟩
    exact ClusterCall.isWrite_eq_false (heffects.settled hstands k hk)
      (Trace.concern_ne_of_about_eq_nil habout k hk)
  applied := by
    rw [← hbefore]
    rcases heffects.applied with ⟨-, happlied⟩ | ⟨-, happlied⟩
    · -- what is noted is what was noted
      rw [happlied]
      refine Std.ExtTreeMap.ext_getElem? fun k => ?_
      rw [Std.ExtTreeMap.getElem?_insert]
      split
      · next heq =>
        rw [← Std.LawfulEqCmp.compare_eq_iff_eq.1 heq, hleft.applied]
      · rfl
    · exact happlied

/-- A pass that succeeds and writes nothing has found that nothing was left. -/
theorem nothingLeft_of_leavesAlone {h : Held} (hinvalid : t.limiter.spec.sets.isEmpty = true)
    (heffects : Effects R s id t.limiter c h t.trace t.result t.after.held)
    (hbefore : h.applied = t.before.held.applied) (hok : t.result = .ok ())
    (halone : t.LeavesAlone) : NothingLeft s id t.limiter c h := by
  obtain ⟨hregistry, hfilters⟩ := (stands_iff_of_noSets hinvalid).1
    (heffects.unwritten hok fun k hk => ClusterCall.writesMesh_of_isWrite (halone.calls k hk))
  refine ⟨hregistry, hfilters, ?_, ?_⟩
  · -- a status that is not right would have been written
    refine Classical.byContradiction fun hstatus => ?_
    have hvalues : statusOf (compiledOf s id t.limiter c) c.material
        = { metrics := c.material.values } :=
      statusOf_of_noSets hinvalid
    rw [← hvalues] at hstatus
    refine ((heffects.succeeds.1 hok).status hstatus).1
      (Trace.about_eq_nil_of_calls fun k hk hstatus => ?_)
    have hwrites := halone.calls k hk
    rw [ClusterCall.isWrite_of_status hstatus] at hwrites
    cases hwrites
  · -- the pass succeeds, so what it has applied is noted
    rcases heffects.applied with ⟨-, happlied⟩ | ⟨⟨e, herror⟩, -⟩
    · rw [hbefore, ← halone.applied, happlied, Std.ExtTreeMap.getElem?_insert_self]
    · rw [hok] at herror
      cases herror

/-- A pass over a limiter that sets nothing because it has changed leaves all alone. -/
theorem Ran.refuses (hR : R.Sound) (ht : t.Ran R s) (hchanged : t.occasion = .changed)
    (hinvalid : t.limiter.spec.sets.isEmpty = true) :
    t.LeavesAlone ∧ ∀ id, keyOf t.limiter = .ok id →
    t.result = .error (.invalidLimiter id .noSets) := by
  cases hkey : keyOf t.limiter with
  | error e => exact ⟨leavesAlone_of_error hkey ht, nofun⟩
  | ok id =>
    unfold Ran at ht
    rw [hchanged] at ht
    obtain ⟨hresult, htrace, hheld⟩ := runs_reconcile_of_noSets hR hkey hinvalid ht
    refine ⟨leavesAlone_of_idle hheld (by rw [htrace]; rfl), fun id' hid' => ?_⟩
    rw [hresult, Except.ok.inj hid']

/-- What becomes of what was written and noted by a pass over the metrics of a limiter that sets
nothing. -/
structure Withdraws (R : Answering) (s : Settings) (id : ResourceId) (t : Taken) (c : Collected) :
    Prop where
  rests : NothingLeft s id t.limiter c t.before.held → t.LeavesAlone
  acts : t.result = .ok () → t.LeavesAlone → NothingLeft s id t.limiter c t.before.held
  notes : t.result = .ok () → t.after.held.applied[id]? = some (appliedOf t.limiter c)
  clears : t.result = .ok () → R.Truthful → ∀ n, Cleared c t.before.held id n →
    t.after.held.filters[filterPlace id n]? = none

/-- A pass over the metrics of a limiter that sets nothing leaves all alone, or the limiter was of
interest and what is left of it is taken away. -/
theorem Ran.withdraws (hR : R.Sound) (ht : t.Ran R s) (hmetrics : t.occasion = .metrics)
    (hinvalid : t.limiter.spec.sets.isEmpty = true) :
    t.LeavesAlone ∨ ∃ id c, keyOf t.limiter = .ok id ∧ t.before.held.interest.contains id = true ∧
      t.Collects s id c ∧ t.Withdraws R s id c := by
  cases hkey : keyOf t.limiter with
  | error e => exact .inl (leavesAlone_of_error hkey ht)
  | ok id =>
    unfold Ran at ht
    rw [hmetrics] at ht
    rcases runs_refresh hR hkey ht with ⟨-, -, hheld, hcalls, -⟩ | ⟨hinterest, hwithin⟩
    · exact .inl (leavesAlone_of_idle hheld hcalls)
    rw [← insert_interest_of_contains hinterest] at hwithin
    -- by how far the pass came
    cases course_of_within hR hwithin with
    | idle held calls _ => exact .inl (leavesAlone_of_idle held calls)
    | blind collects _ aside held =>
      have habout := about_status_of_within hR hwithin fun c hc => absurd hc (collects c)
      exact .inl
        { calls := fun k hk => ClusterCall.isWrite_eq_false (aside k hk).2
            (Trace.concern_ne_of_about_eq_nil habout k hk)
          applied := by rw [held]; rfl }
    | seen service subsets pods replies collects effects =>
      refine .inr ⟨id, _, rfl, hinterest, collects, ?_, fun hok => ?_, fun hok => ?_,
        fun hok hT n hn => ?_⟩
      · intro hleft
        have habout := about_status_of_within hR hwithin fun c' hc' => by
          rw [hc'.eq collects, statusOf_of_noSets hinvalid]
          exact hleft.status
        exact leavesAlone_of_nothingLeft hinvalid effects habout rfl
          ⟨hleft.registry, hleft.filters, hleft.status, hleft.applied⟩
      · intro halone
        obtain ⟨hregistry, hfilters, hstatus, happlied⟩ :=
          nothingLeft_of_leavesAlone hinvalid effects rfl hok halone
        exact ⟨hregistry, hfilters, hstatus, happlied⟩
      · rcases effects.applied with ⟨-, happlied⟩ | ⟨⟨e, herror⟩, -⟩
        · rw [happlied, Std.ExtTreeMap.getElem?_insert_self]
        · rw [hok] at herror
          cases herror
      · exact (effects.filters (.inr hok)).2 hT n ((mem_desiredOf_of_noSets hinvalid).2 ⟨rfl, hn⟩)

end Taken

/-- **When a limiter that sets nothing is left alone.** In every run of passes and deletions from an
engine without interests on, over limiters that may change in between, a pass over a changed limiter
that sets nothing is refused: it writes no filter, no registry and no status, and leaves what is
noted as applied. A pass over the metrics of such a limiter does so too, unless the limiter has
changed, since it was last deleted, to one that set something, and its metrics are collected. Then
the limiter is applied: a pass that succeeds leaves all alone if and only if nothing of the limiter
is left to take away or to note, and takes away its filters. -/
theorem invalid_applied_iff (hR : R.Sound) (hstart : w₀.held.interest = ∅) {ts : List Served}
    (session : Session R s w₀ ts w) {before behind : List Served} {t : Taken}
    (hsplit : ts = before ++ .pass t :: behind) (hinvalid : t.limiter.spec.sets.isEmpty = true) :
    (t.occasion = .changed → t.LeavesAlone ∧
      ∀ id, keyOf t.limiter = .ok id → t.result = .error (.invalidLimiter id .noSets)) ∧
    (t.occasion = .metrics → t.LeavesAlone ∨ ∃ id c, keyOf t.limiter = .ok id ∧
      WantedSince before id ∧ t.Collects s id c ∧ t.Withdraws R s id c) := by
  obtain ⟨prior, ran⟩ := session.of_mem hsplit
  refine ⟨fun hchanged => ran.refuses hR hchanged hinvalid, fun hmetrics => ?_⟩
  rcases ran.withdraws hR hmetrics hinvalid with halone |
    ⟨id, c, hkey, hinterest, hcollects, hwithdraws⟩
  · exact .inl halone
  · exact .inr ⟨id, c, hkey, prior.wanted hR hstart hinterest, hcollects, hwithdraws⟩

/-! ## A limiter that is emptied

The limiter has a rule, and its filter is written. Then the rule is taken out, and a look at its
metrics takes the filter away. -/

/-- The pass over a limiter with a rule, and that over its metrics once the rule is taken out. -/
def emptiedPasses : List (Occasion × Limiter) :=
  [(.changed, reviewsLimiter 1 [("v1", "5")]), (.metrics, reviewsLimiter 2 [])]

/-- Both passes are a session. -/
theorem session_emptied : Session World.AnswersTruly noMetrics (reviewsWorld [])
    ((takeAll noMetrics (reviewsWorld []) emptiedPasses).map .pass)
    (afterAll noMetrics (reviewsWorld []) emptiedPasses) :=
  (history_alone_truly noMetrics (w := reviewsWorld []) nofun emptiedPasses).session

/-- Who writes does not leave everything alone. -/
theorem not_leavesAlone_of_write {t : Taken} (h : ∃ k ∈ t.trace.calls, k.isWrite = true) :
    ¬ t.LeavesAlone := by
  intro halone
  obtain ⟨k, hk, hwrite⟩ := h
  rw [halone.calls k hk] at hwrite
  cases hwrite

/-- The second pass takes away the filter of the first one, and notes the limiter as applied. -/
theorem invalid_applied_iff_emptied :
    let p := Taken.alone noMetrics (reviewsWorld []) .changed (reviewsLimiter 1 [("v1", "5")])
    let t := Taken.alone noMetrics p.after .metrics (reviewsLimiter 2 [])
    (t.limiter.spec.sets.isEmpty = true ∧ t.result = .ok () ∧
      t.before.held.filters[filterPlace reviews "v1"]?.isSome = true) ∧
    WantedSince [.pass p] reviews ∧
    ∃ c, t.after.held.applied[reviews]? = some (appliedOf t.limiter c) ∧
      t.after.held.filters[filterPlace reviews "v1"]? = none := by
  intro p t
  obtain ⟨hempty, hkey, hok, hfilter, hwritten, hwrites⟩ : t.limiter.spec.sets.isEmpty = true ∧
      keyOf t.limiter = .ok reviews ∧ t.result.isOk = true ∧
      t.before.held.filters[filterPlace reviews "v1"]?.isSome = true ∧
      "v1" ∈ t.before.held.written.getD reviews ∅ ∧ ∃ k ∈ t.trace.calls, k.isWrite = true := by
    decide +kernel
  obtain ⟨u, hok⟩ := exists_eq_ok_of_isOk hok
  refine ⟨⟨hempty, hok, hfilter⟩, ?_⟩
  -- the look at the metrics, with the first pass before it
  have hsplit : [Served.pass p, .pass t] = [.pass p] ++ .pass t :: [] := rfl
  rcases (invalid_applied_iff sound_answersTruly rfl session_emptied hsplit hempty).2 rfl with
    halone | ⟨id, c, hid, hwanted, -, hwithdraws⟩
  · exact absurd halone (not_leavesAlone_of_write hwrites)
  · rw [hkey] at hid
    obtain rfl := Except.ok.inj hid
    exact ⟨hwanted, c, hwithdraws.notes hok,
      hwithdraws.clears hok truthful_answersTruly "v1" (.inr (.inr hwritten))⟩

/-- **A limiter that sets nothing is applied** where it is of interest since it set something. -/
theorem exists_invalid_applied : ¬ ∀ (s : Settings) (w₀ w : World) (ts : List Served),
    w₀.held.interest = ∅ → Session World.AnswersTruly s w₀ ts w →
    ∀ t, .pass t ∈ ts → t.limiter.spec.sets.isEmpty = true → t.LeavesAlone := by
  intro h
  refine not_leavesAlone_of_write ?_ (h noMetrics (reviewsWorld []) _ _ rfl session_emptied _
    (List.mem_cons_of_mem _ List.mem_cons_self) ?_)
  · decide +kernel
  · decide +kernel

end Pass

end MeshLimiter
