import MeshLimiter.Proofs.Pass.Application
import MeshLimiter.Proofs.Pass.Registration
/-!
# The parts of a pass by themselves

Whether the registry or the filter of a subset comes about can be told from the calls about it
alone, and so can what a filter is in the end. No other part makes such calls.

* **`Registry.ok_iff_succeeds`**: a merge succeeds if its calls do and the registry can be read;
* **`ProxyFilter.ok_iff_succeeds`**, **`ProxyFilter.map_spec_of_runs_apply`**: the same for one
  filter, and what it comes to;
* **`Pass.EachApplied`**: of many filters each is applied in a run of its own.
-/

namespace MeshLimiter

open Program (Runs runs_done runs_step)

namespace Registry

variable {R : Answering} {s : Settings} {service : ResourceId} {descriptors : List GlobalDescriptor}
  {w w' : World} {tr tr' : Trace} {y : Except PassError Bool}

/-- No registry that was got was one that cannot be read. -/
def Readable (s : Settings) (tr : Trace) : Prop :=
  ∀ c, (⟨.call (.configMap s.registry), .ok (some c)⟩ : Event) ∈ tr.about .registry →
    ofConfigMap? s c ≠ none

/-- Whether a registry could be read is told by what is about the registry. -/
theorem readable_congr (h : tr.about .registry = tr'.about .registry) :
    Readable s tr ↔ Readable s tr' := by
  rw [Readable, Readable, h]

/-- A merge is about nothing but the registry. -/
theorem about_of_runs_merge (h : Runs R (merge s service descriptors).run w tr y w')
    {k : ClusterCall.Concern} (hk : k ≠ .registry) : tr.about k = [] :=
  h.about_eq_nil (takes_merge s service descriptors) fun c hc => by
    rw [show c.concern = .registry from hc]
    exact hk.symm

/-- After the registry was got, it is not got again. -/
theorem readable_cons {r : Except ClusterError (Option ConfigMap)} {rest : Trace}
    (hrest : ∀ event ∈ rest, event.call? ≠ some (.configMap s.registry)) :
    Readable s (⟨.call (.configMap s.registry), r⟩ :: rest) ↔
      ∀ c, r = .ok (some c) → ofConfigMap? s c ≠ none := by
  refine ⟨fun h c hc => h c ?_, fun h c hc => ?_⟩
  · subst hc
    exact List.mem_cons_self
  · rcases List.mem_cons.1 (List.mem_filter.1 hc).1 with hevent | hevent
    · exact h c (Event.reply_eq hevent).symm
    · exact absurd rfl (hrest _ hevent)

/-- A merge succeeds just if its calls do, and if the registry can be read. -/
theorem ok_iff_succeeds (h : Runs R (merge s service descriptors).run w tr y w') :
    (∃ b, y = .ok b) ↔ tr.Succeeds .registry ∧ Readable s tr := by
  obtain ⟨w₀, r, v, rest, -, -, rfl, hr⟩ := runs_merge h
  have hget : (ClusterCall.configMap s.registry).concern = .registry := rfl
  have hrest : ∀ event ∈ rest, event.call? ≠ some (.configMap s.registry) := by
    rcases hr with ⟨e, -, -, rfl, -⟩ | ⟨found, -, -, -, rfl, -⟩ | ⟨c, -, -, -, rfl, -⟩ |
      ⟨found, c, -, -, hc, q, u, counts, -, rfl, hq⟩
    · exact List.forall_mem_nil _
    · exact List.forall_mem_nil _
    · exact List.forall_mem_nil _
    · refine List.forall_mem_cons.2 ⟨fun heq =>
        (concern_of_mergeWrite? hc).2 _ (Option.some.inj heq), ?_⟩
      rcases hq with ⟨e, -, -, rfl, -⟩ | ⟨-, -, kind, u', -, rfl, -⟩
      · exact List.forall_mem_nil _
      · exact List.forall_mem_singleton.2 nofun
  refine Iff.trans ?_ (and_congr (Trace.succeeds_cons hget) (readable_cons hrest)).symm
  rcases hr with ⟨e, rfl, rfl, -⟩ | ⟨found, rfl, hs, rfl, rfl, -⟩ | ⟨c, rfl, hc, rfl, rfl, -⟩ |
    ⟨found, c, rfl, hs, hc, q, u, counts, -, rfl, hq⟩
  · exact iff_of_false (by simp) fun h => Bool.noConfusion h.1.1
  · -- what was got is settled, so it was read
    refine iff_of_true ⟨false, rfl⟩ ⟨⟨rfl, by simp⟩, fun c hc hnone => ?_⟩
    obtain rfl := Except.ok.inj hc
    obtain ⟨m, hm, -⟩ := hs
    rw [hnone] at hm
    cases hm
  · exact iff_of_false (by simp) fun h => h.2 c rfl hc
  · -- it was read and is written; whether that comes about decides
    have hconcern := (concern_of_mergeWrite? hc).1
    have hread : ∀ m, (.ok found : Except ClusterError (Option ConfigMap)) = .ok (some m) →
        ofConfigMap? s m ≠ none := by
      rintro m hm hnone
      obtain rfl := Except.ok.inj hm
      rw [mergeWrite?, hnone] at hc
      cases hc
    rw [Trace.about_cons_of_isAbout (Event.isAbout_call.2 hconcern), List.forall_mem_cons]
    rcases hq with ⟨e, rfl, rfl, rfl, -⟩ | ⟨⟨a, rfl⟩, rfl, kind, u', -, rfl, -⟩
    · have hfailure : c.isFailure (.error e) = true :=
        ClusterCall.isFailure_error (.inl fun p hp => by rw [hp] at hconcern; cases hconcern)
      refine iff_of_false (by simp) fun h => ?_
      rw [show c.isFailure (.error e) = false from h.1.2.1] at hfailure
      cases hfailure
    · exact iff_of_true ⟨true, rfl⟩
        ⟨⟨rfl, ClusterCall.isFailure_ok c a, List.forall_mem_nil _⟩, hread⟩

end Registry

namespace ProxyFilter

variable {R : Answering} {id : ResourceId} {l : Limiter} {subset : String}
  {spec : Option FilterSpec} {w w' : World} {tr : Trace} {y : Except PassError Unit}

/-- The application of a filter is about nothing but that filter. -/
theorem about_of_runs_apply (h : Runs R (apply id l subset spec).run w tr y w')
    {k : ClusterCall.Concern} (hk : k ≠ .filter (filterPlace id subset)) : tr.about k = [] :=
  h.about_eq_nil (takes_apply id l subset spec) fun c hc => by
    rw [show c.concern = .filter (filterPlace id subset) from hc]
    exact hk.symm

/-- Whichever write it is, it is about the filter. -/
theorem concern_writeFor (found : Option ProxyFilter) :
    (writeFor id l subset spec found).concern = .filter (filterPlace id subset) := by
  cases spec <;> cases found <;> rfl

/-- The application of a filter succeeds just if its calls do. -/
theorem ok_iff_succeeds (h : Runs R (apply id l subset spec).run w tr y w') :
    y = .ok () ↔ tr.Succeeds (.filter (filterPlace id subset)) := by
  obtain ⟨r, v, rest, -, rfl, hr⟩ := runs_apply h
  have hget : (ClusterCall.filter (filterPlace id subset)).concern
      = .filter (filterPlace id subset) := rfl
  refine Iff.trans ?_ (Trace.succeeds_cons hget).symm
  rcases hr with ⟨e, rfl, rfl, -⟩ | ⟨found, rfl, -, rfl, rfl, -⟩ |
    ⟨found, rfl, -, q, u, counts, -, rfl, hq⟩
  · exact iff_of_false (by simp) fun h => Bool.noConfusion h.1
  · exact iff_of_true rfl ⟨rfl, by simp⟩
  · rw [Trace.about_cons_of_isAbout (Event.isAbout_call.2 (concern_writeFor found)),
      List.forall_mem_cons]
    rcases hq with ⟨e, rfl, hne, rfl, rfl, -⟩ | ⟨hq, rfl, kind, -, rfl⟩
    · have hfailure : (writeFor id l subset spec found).isFailure (.error e) = true :=
        isFailure_writeFor found hne
      refine iff_of_false (by simp) fun h => ?_
      rw [show (writeFor id l subset spec found).isFailure (.error e)
        = false from h.2.1] at hfailure
      cases hfailure
    · refine iff_of_true rfl ⟨rfl, ?_, List.forall_mem_nil _⟩
      rcases hq with ⟨a, rfl⟩ | ⟨rfl, rfl⟩
      · exact ClusterCall.isFailure_ok _ a
      · -- there was nothing to delete
        rfl

/-- A filter whose calls are all answered, or whose deletion is denied only if there is none, comes
to what it is to be. -/
theorem map_spec_of_runs_apply (hR : R.Sound) (h : Runs R (apply id l subset spec).run w tr y w')
    (hcalls : (∀ event ∈ tr.about (.filter (filterPlace id subset)), event.isError = false) ∨
      R.Truthful ∧ tr.Succeeds (.filter (filterPlace id subset))) :
    w'.held.filters[filterPlace id subset]?.map (·.spec) = spec := by
  -- if all is answered, the write has had its effect; if not, it was a deletion of what is not
  -- there
  rcases hcalls with hanswered | ⟨hT, hsucceeds⟩
  · obtain ⟨r, v, rest, hget, rfl, hr⟩ := runs_apply h
    have hv : v.held = w.held := (hR hget).held_of_isQuiet rfl
    have hgetAbout : Event.isAbout (.filter (filterPlace id subset))
        ⟨.call (.filter (filterPlace id subset)), r⟩ = true := Event.isAbout_call.2 rfl
    obtain ⟨hfirst, hlater⟩ := List.forall_mem_cons.1
      ((Trace.about_cons_of_isAbout hgetAbout rest).symm ▸ hanswered)
    rcases hr with ⟨e, rfl, -⟩ | ⟨found, rfl, hfound, -, -, rfl⟩ |
      ⟨found, rfl, -, q, u, counts, hwrite, rfl, hq⟩
    · -- an error is no answer
      cases hfirst
    · rw [hv, ← (hR hget).filter, hfound]
    · rw [Trace.about_cons_of_isAbout (Event.isAbout_call.2 (concern_writeFor found))] at hlater
      have hanswer := (List.forall_mem_cons.1 hlater).1
      have hu := hq.held hR
      rcases (hR hwrite).call with ⟨⟨e, rfl⟩, -⟩ | ⟨version, hheld⟩
      · cases hanswer
      · rw [hu, hheld]
        exact map_spec_after_writeFor v.held version found
  · have hb := broughtTo_of_runs_apply hR h
    obtain rfl := (ok_iff_succeeds h).2 hsucceeds
    cases spec with
    | some spec => exact hb.present rfl (by simp)
    | none =>
      rw [hb.absent_of_truthful hT]
      rfl

end ProxyFilter

namespace Pass

variable {R : Answering} {id : ResourceId} {l : Limiter} {w w' : World} {tr : Trace}

/-- Of many filters each is applied in a run of its own, which shows in the trace as if it were
alone, and after which the filter is not touched again. -/
structure EachApplied (R : Answering) (id : ResourceId) (l : Limiter)
    (entries : List (String × Option FilterSpec)) (a : Applying) (tr : Trace) (a' : Applying)
    (w' : World) : Prop where
  about : ∀ k, (∀ e ∈ entries, k ≠ .filter (filterPlace id e.1)) → tr.about k = []
  each : ∀ e ∈ entries, ∃ (v v' : World) (tr₁ : Trace) (y : Except PassError Unit),
    Runs R (ProxyFilter.apply id l e.1 e.2).run v tr₁ y v' ∧
    tr.about (.filter (filterPlace id e.1)) = tr₁.about (.filter (filterPlace id e.1)) ∧
    w'.held.filters[filterPlace id e.1]? = v'.held.filters[filterPlace id e.1]?
  ok : a'.failure = none ↔
    a.failure = none ∧ ∀ e ∈ entries, tr.Succeeds (.filter (filterPlace id e.1))

/-- It is so in every run, by induction on the filters. -/
theorem eachApplied_of_runs (hR : R.Sound) {entries : List (String × Option FilterSpec)}
    (hnodup : (entries.map Prod.fst).Nodup) {a a' : Applying}
    (h : Runs R (applyAll id l a entries) w tr a' w') : EachApplied R id l entries a tr a' w' := by
  induction entries generalizing a w tr with
  | nil =>
    obtain ⟨rfl, rfl, rfl⟩ := runs_done.1 h
    exact
      { about := fun k _ => rfl
        each := List.forall_mem_nil _
        ok := by simp }
  | cons entry more ih =>
    -- the later filters stand elsewhere, so what is about the first is found in its own stretch
    obtain ⟨subset, spec⟩ := entry
    obtain ⟨tr₁, a₁, v, tr₂, h₁, h₂, rfl⟩ := Program.runs_bind.1 h
    obtain ⟨hfresh, hmore⟩ := List.nodup_cons.1 hnodup
    obtain ⟨y, hrun, hnote⟩ := runs_applyOne h₁
    have hrest := ih hmore h₂
    have hne : ∀ e ∈ more, filterPlace id subset ≠ filterPlace id e.1 := by
      intro e he heq
      exact hfresh (List.mem_map.2 ⟨e, he, (filterPlace_injective heq).symm⟩)
    have hplace : ∀ e ∈ more, ClusterCall.Concern.filter (filterPlace id subset)
        ≠ .filter (filterPlace id e.1) := fun e he heq =>
        hne e he (ClusterCall.Concern.filter.inj heq)
    -- what is about the first filter stands in the first part of the trace only
    have hfirst : Trace.about (.filter (filterPlace id subset)) (tr₁ ++ tr₂)
        = tr₁.about (.filter (filterPlace id subset)) := by
      rw [Trace.about_append, hrest.about _ hplace, List.append_nil]
    have hlater : ∀ e ∈ more, Trace.about (.filter (filterPlace id e.1)) (tr₁ ++ tr₂)
        = tr₂.about (.filter (filterPlace id e.1)) := by
      intro e he
      rw [Trace.about_append, ProxyFilter.about_of_runs_apply hrun (hplace e he).symm,
        List.nil_append]
    exact
      { about := fun k hk => by
          rw [Trace.about_append, ProxyFilter.about_of_runs_apply hrun (hk _ List.mem_cons_self),
            hrest.about k fun e he => hk e (List.mem_cons_of_mem _ he), List.nil_append]
        each := by
          intro e he
          rcases List.mem_cons.1 he with rfl | he
          · exact ⟨w, v, tr₁, y, hrun, hfirst, (allBroughtTo_of_runs hR hmore h₂).frame _ hne⟩
          · obtain ⟨u, u', tr₃, z, hone, habout, hheld⟩ := hrest.each e he
            exact ⟨u, u', tr₃, z, hone, by rw [hlater e he, habout], hheld⟩
        ok := by
          have hy : a₁.failure = none ↔ a.failure = none ∧ y = .ok () := by
            refine ⟨fun hf => (hnote.ok hf).symm, fun ⟨hf, hy⟩ => ?_⟩
            refine Classical.byContradiction fun hf₁ => ?_
            rcases hnote.fails hf₁ with hfa | ⟨e, he⟩
            · exact hfa hf
            · rw [hy] at he
              cases he
          rw [hrest.ok, hy, List.forall_mem_cons, and_assoc]
          refine and_congr_right fun _ => and_congr ?_ ?_
          · rw [ProxyFilter.ok_iff_succeeds hrun, Trace.succeeds_congr hfirst]
          · exact forall₂_congr fun e he => (Trace.succeeds_congr (hlater e he)).symm }

end Pass

end MeshLimiter
