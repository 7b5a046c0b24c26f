import MeshLimiter.Pass
import MeshLimiter.Proofs.Filter.Name
import MeshLimiter.Proofs.Program.Answers
import MeshLimiter.Proofs.Program.Takes
/-!
# What applying filters does

The filter of a subset is read, and written at most once. Of many filters each is applied on its
own; a failure keeps none of the others from being applied.

* **`ProxyFilter.runs_apply`**: all runs of the application of one filter;
* **`ProxyFilter.BroughtTo`**: what it comes to, and `ProxyFilter.broughtTo_of_runs_apply` that it
  does;
* **`Pass.AllBroughtTo`**, **`Pass.allBroughtTo_of_runs`**: the same for all filters of a limiter.
-/

namespace MeshLimiter

open Program (Runs runs_done runs_step)

namespace ProxyFilter

@[simp] theorem id_desired (id : ResourceId) (l : Limiter) (subset : String) (spec : FilterSpec)
    (labels : Labels) : ((desired id l subset spec).marked labels).metadata.id
      = filterPlace id subset := rfl

@[simp] theorem id_inPlaceOf (id : ResourceId) (l : Limiter) (subset : String) (spec : FilterSpec)
    (old : ProxyFilter) : ((desired id l subset spec).inPlaceOf old).metadata.id
      = filterPlace id subset := rfl

/-- The write that brings a filter to a specification. -/
def writeFor (id : ResourceId) (l : Limiter) (subset : String) :
    Option FilterSpec → Option ProxyFilter → ClusterCall
  | none, _ => .deleteFilter (filterPlace id subset)
  | some spec, none => .createFilter ((desired id l subset spec).marked ∅)
  | some spec, some old => .replaceFilter ((desired id l subset spec).inPlaceOf old)

variable {R : Answering} {id : ResourceId} {l : Limiter} {subset : String}
  {spec : Option FilterSpec} {w w' : World} {tr : Trace} {y : Except PassError Unit}

/-- A run of the deletion of a filter: the call is refused, or the filter counts as deleted. -/
theorem runs_remove (h : Runs R (remove id subset).run w tr y w') :
    ∃ (r : Except ClusterError Unit) (v : World) (rest : Trace),
      R w (.call (.deleteFilter (filterPlace id subset))) r v ∧
      tr = ⟨.call (.deleteFilter (filterPlace id subset)), r⟩ :: rest ∧
      ((∃ e, r = .error e ∧ e ≠ .notFound ∧ y = .error (.cluster e) ∧ rest = [] ∧ w' = v) ∨
        (r = .ok () ∨ r = .error .notFound) ∧ y = .ok () ∧
          R v (.count (.filterWrite .delete)) () w' ∧
          rest = [⟨.count (.filterWrite .delete), ()⟩]) := by
  unfold remove at h
  dsimp only at h
  obtain ⟨tr₁, x, v, tr₂, h₁, h₂, rfl⟩ := Attempt.runs_lift_bind.1 h
  obtain ⟨r, answer, rfl, rfl⟩ := Attempt.runs_call.1 h₁
  refine ⟨r, v, tr₂, answer, rfl, ?_⟩
  cases r with
  | ok u => exact .inr ⟨.inl rfl, Attempt.runs_count.1 h₂⟩
  | error e =>
    dsimp only [Except.mapError] at h₂
    split at h₂
    · -- there was nothing to delete
      next he =>
      obtain rfl := PassError.cluster.inj he
      exact .inr ⟨.inr rfl, Attempt.runs_count.1 h₂⟩
    · next hne =>
      have hne : e ≠ .notFound := fun he => hne (congrArg PassError.cluster he)
      rcases Attempt.runs_bind.1 h₂ with ⟨tr₃, u, v', tr₄, h₃, -, -⟩ | ⟨e', h₃, rfl⟩
      · obtain ⟨-, hu, -⟩ := Attempt.runs_throw.1 h₃
        cases hu
      · obtain ⟨rfl, he, rfl⟩ := Attempt.runs_throw.1 h₃
        exact .inl ⟨e, rfl, hne, he, rfl, rfl⟩

/-- What follows a write that was answered with `q`. An error ends the application; a write that is
done, or a deletion that finds nothing to delete, is counted. -/
def Closes (R : Answering) (spec : Option FilterSpec) {α : Type} (u : World)
    (q : Except ClusterError α) (counts : Trace) (y : Except PassError Unit) (w' : World) : Prop :=
  (∃ e, q = .error e ∧ (spec = none → e ≠ .notFound) ∧ y = .error (.cluster e) ∧
      counts = [] ∧ w' = u) ∨
    ((∃ a, q = .ok a) ∨ spec = none ∧ q = .error .notFound) ∧ y = .ok () ∧
      ∃ kind, R u (.count (.filterWrite kind)) () w' ∧
        counts = [⟨.count (.filterWrite kind), ()⟩]

/-- A run of the application of a filter. The filter is read; then nothing is done, or it is written
once and that is counted. -/
theorem runs_apply (h : Runs R (apply id l subset spec).run w tr y w') :
    ∃ (r : Except ClusterError (Option ProxyFilter)) (v : World) (rest : Trace),
      R w (.call (.filter (filterPlace id subset))) r v ∧
      tr = ⟨.call (.filter (filterPlace id subset)), r⟩ :: rest ∧
      ((∃ e, r = .error e ∧ y = .error (.cluster e) ∧ rest = [] ∧ w' = v) ∨
        (∃ found, r = .ok found ∧ found.map (·.spec) = spec ∧ y = .ok () ∧ rest = [] ∧ w' = v) ∨
        ∃ found, r = .ok found ∧ found.map (·.spec) ≠ spec ∧
          ∃ (q : (writeFor id l subset spec found).Reply) (u : World) (counts : Trace),
            R v (.call (writeFor id l subset spec found)) q u ∧
            rest = ⟨.call (writeFor id l subset spec found), q⟩ :: counts ∧
            Closes R spec u q counts y w') := by
  unfold apply at h
  dsimp only at h
  obtain ⟨r, v, rest, answer, rfl, ⟨found, rfl, hrun⟩ | ⟨e, rfl, hy, rfl, rfl⟩⟩ :=
    Attempt.runs_call_bind.1 h
  · refine ⟨_, v, rest, answer, rfl, .inr ?_⟩
    cases spec with
    | none =>
      cases found with
      | none =>
        obtain ⟨rfl, rfl, rfl⟩ := Attempt.runs_pure.1 hrun
        exact .inl ⟨none, rfl, rfl, rfl, rfl, rfl⟩
      | some old =>
        -- a filter that is to be gone
        obtain ⟨q, u, counts, hdelete, rfl, hq⟩ := runs_remove hrun
        refine .inr ⟨some old, rfl, by simp, q, u, counts, hdelete, rfl, hq.imp ?_ ?_⟩
        · rintro ⟨e, he, hne, hrest⟩
          exact ⟨e, he, fun _ => hne, hrest⟩
        rintro ⟨hq, hy, hcount, hcounts⟩
        exact ⟨hq.imp (fun hq => ⟨_, hq⟩) (fun hq => ⟨rfl, hq⟩), hy, _, hcount, hcounts⟩
    | some spec =>
      cases found with
      | none =>
        -- a filter that is new
        obtain ⟨q, u, counts, hwrite, rfl, hq⟩ := Attempt.runs_call_bind.1 hrun
        refine .inr ⟨none, rfl, by simp, q, u, counts, hwrite, rfl, hq.symm.imp ?_ ?_⟩
        · rintro ⟨e, he, hrest⟩
          exact ⟨e, he, nofun, hrest⟩
        rintro ⟨a, rfl, hcount⟩
        obtain ⟨hy, hcount, hcounts⟩ := Attempt.runs_count.1 hcount
        exact ⟨.inl ⟨a, rfl⟩, hy, _, hcount, hcounts⟩
      | some old =>
        dsimp only at hrun
        split at hrun
        · next he =>
          obtain ⟨rfl, rfl, rfl⟩ := Attempt.runs_pure.1 hrun
          exact .inl ⟨some old, rfl, by simp [he], rfl, rfl, rfl⟩
        · -- a filter that is there but not right
          next he =>
          obtain ⟨q, u, counts, hwrite, rfl, hq⟩ := Attempt.runs_call_bind.1 hrun
          refine .inr ⟨some old, rfl, by simpa using he, q, u, counts, hwrite, rfl,
            hq.symm.imp ?_ ?_⟩
          · rintro ⟨e, he, hrest⟩
            exact ⟨e, he, nofun, hrest⟩
          rintro ⟨a, rfl, hcount⟩
          obtain ⟨hy, hcount, hcounts⟩ := Attempt.runs_count.1 hcount
          exact ⟨.inl ⟨a, rfl⟩, hy, _, hcount, hcounts⟩
  · exact ⟨_, _, [], answer, rfl, .inl ⟨e, rfl, hy, rfl, rfl⟩⟩

/-- The application of a filter makes no call about anything else. -/
theorem takes_apply (id : ResourceId) (l : Limiter) (subset : String) (spec : Option FilterSpec) :
    (apply id l subset spec).run.Takes (Command.Calls (.filter (filterPlace id subset))) := by
  -- a write is counted, and counting is no call
  have hwrite : ∀ (c : ClusterCall) (kind : WriteKind),
      c.concern = .filter (filterPlace id subset) → (Attempt.call PassError.cluster c >>= fun _ =>
        (Program.count (.filterWrite kind) : Attempt PassError Unit)).run.Takes
        (Command.Calls (.filter (filterPlace id subset))) := fun c kind hc =>
    Attempt.takes_bind (Attempt.takes_call hc) fun _ =>
    Attempt.takes_lift (Program.takes_step trivial)
  refine Attempt.takes_bind (Attempt.takes_call rfl) fun current => ?_
  cases spec with
  | none =>
    cases current with
    | none => trivial
    | some old =>
      refine Attempt.takes_bind (Attempt.takes_lift (Attempt.takes_call rfl)) fun r => ?_
      have hcount : ((Program.count (.filterWrite .delete) : Attempt PassError Unit)).run.Takes
          (Command.Calls (.filter (filterPlace id subset))) :=
        Attempt.takes_lift (Program.takes_step trivial)
      cases r with
      | ok _ => exact hcount
      | error e =>
        dsimp only
        split
        · exact hcount
        · exact Attempt.takes_bind trivial fun _ => hcount
  | some spec =>
    cases current with
    | none => exact hwrite _ _ rfl
    | some old =>
      dsimp only
      split
      · -- a filter that is right is left alone
        trivial
      · exact hwrite _ _ rfl

/-! ## One filter

The write is chosen by what is wanted and what was found. Whichever it is, it changes the one filter
and nothing else. -/

/-- Whichever write it is, it is about the filter of the subset. -/
theorem filterPlace_writeFor (found : Option ProxyFilter) :
    (writeFor id l subset spec found).filterPlace? = some (filterPlace id subset) := by
  cases spec <;> cases found <;> rfl

/-- Whichever write it is, the mesh goes by it. -/
theorem writesMesh_writeFor (found : Option ProxyFilter) :
    (writeFor id l subset spec found).writesMesh = true := by
  cases spec <;> cases found <;> rfl

/-- A filter that is to be there is not deleted. -/
theorem writeFor_ne_deleteFilter (found : Option ProxyFilter) (hspec : spec ≠ none)
    (p : ResourceId) : writeFor id l subset spec found ≠ .deleteFilter p := by
  cases spec with
  | none => exact absurd rfl hspec
  | some spec => cases found <;> exact nofun

/-- The write concerns no other filter, and nothing else. -/
theorem after_writeFor (h : Held) (version : String) (found : Option ProxyFilter) :
    h.after version (writeFor id l subset spec found)
        = { h with filters := (h.after version (writeFor id l subset spec found)).filters } ∧
      ∀ p, p ≠ filterPlace id subset →
        (h.after version (writeFor id l subset spec found)).filters[p]? = h.filters[p]? := by
  cases spec with
  | none =>
    -- a deletion: the other filters stay in the map
    refine ⟨rfl, fun p hp => ?_⟩
    show (h.filters.erase (filterPlace id subset))[p]? = h.filters[p]?
    rw [Std.ExtTreeMap.getElem?_erase, if_neg (by simpa using hp.symm)]
  | some spec =>
    cases found with
    | none =>
      -- a creation and a replacement both put one filter into the map
      refine ⟨rfl, fun p hp => ?_⟩
      show (h.filters.insert (filterPlace id subset) _)[p]? = h.filters[p]?
      rw [Std.ExtTreeMap.getElem?_insert, if_neg (by simpa using hp.symm)]
    | some old =>
      refine ⟨rfl, fun p hp => ?_⟩
      show (h.filters.insert (filterPlace id subset) _)[p]? = h.filters[p]?
      rw [Std.ExtTreeMap.getElem?_insert, if_neg (by simpa using hp.symm)]

/-- Once the write has had its effect, the filter is what it is to be. -/
theorem map_spec_after_writeFor (h : Held) (version : String) (found : Option ProxyFilter) :
    ((h.after version (writeFor id l subset spec found)).filters[filterPlace id subset]?).map
      (·.spec) = spec := by
  cases spec with
  | none =>
    show ((h.filters.erase (filterPlace id subset))[filterPlace id subset]?).map _ = none
    rw [Std.ExtTreeMap.getElem?_erase_self]
    rfl
  | some spec =>
    cases found with
    | none =>
      show ((h.filters.insert (filterPlace id subset) _)[filterPlace id subset]?).map _ = some spec
      rw [Std.ExtTreeMap.getElem?_insert_self]
      rfl
    | some old =>
      show ((h.filters.insert (filterPlace id subset) _)[filterPlace id subset]?).map _ = some spec
      rw [Std.ExtTreeMap.getElem?_insert_self]
      rfl

/-- What the application of one filter comes to: `p` is its place, `spec` what it is to be. -/
structure BroughtTo (R : Answering) (p : ResourceId) (spec : Option FilterSpec) (w : World)
    (tr : Trace) (y : Except PassError Unit) (w' : World) : Prop where
  /-- Nothing but filters is changed. -/
  held : w'.held = { w.held with filters := w'.held.filters }
  /-- No other filter is changed. -/
  frame : ∀ q, q ≠ p → w'.held.filters[q]? = w.held.filters[q]?
  calls : ∀ c ∈ tr.calls, c.filterPlace? = some p
  observed : tr.observed = []
  failed : (∃ e, y = .error e) → ∃ event ∈ tr, event.isFailedFilterCall = true
  /-- A filter that is right is not written. -/
  settled : w.held.filters[p]?.map (·.spec) = spec → ∀ c ∈ tr.calls, c.writesMesh = false
  /-- Only one that is right is left alone. -/
  unwritten : y = .ok () → (∀ c ∈ tr.calls, c.writesMesh = false) →
    w.held.filters[p]?.map (·.spec) = spec
  /-- A filter that is to be there is right in the end. -/
  present : y = .ok () → spec ≠ none → w'.held.filters[p]?.map (·.spec) = spec
  /-- A filter that is to be gone is gone in the end, unless the cluster denied it. -/
  absent : y = .ok () → spec = none → w'.held.filters[p]? = none ∨
    ∃ v v' : World, R v (.call (.deleteFilter p)) (.error .notFound) v' ∧ v'.held = w'.held

/-! ### A write and what it leaves

Each fact about a filter that is written is a lemma of its own: what follows the write, what it may
have changed, and what stands in the filter's place once the application has come to its end. -/

section Write

variable {found : Option ProxyFilter} {q : (writeFor id l subset spec found).Reply} {u : World}
  {counts : Trace}

/-- Counting changes nothing that is held. -/
theorem Closes.held (hR : R.Sound) (h : Closes R spec u q counts y w') : w'.held = u.held := by
  rcases h with ⟨e, -, -, -, -, rfl⟩ | ⟨-, -, kind, hcount, -⟩
  · rfl
  · exact (hR hcount).held_of_isQuiet rfl

/-- What follows a write makes no call. -/
theorem Closes.calls (h : Closes R spec u q counts y w') : counts.calls = [] := by
  rcases h with ⟨e, -, -, -, rfl, -⟩ | ⟨-, -, kind, -, rfl⟩ <;> rfl

/-- Nor is anything observed. -/
theorem Closes.observed (h : Closes R spec u q counts y w') : counts.observed = [] := by
  rcases h with ⟨e, -, -, -, rfl, -⟩ | ⟨-, -, kind, -, rfl⟩ <;> rfl

/-- An error of a write is a failure, unless a deletion has found nothing to delete. -/
theorem isFailure_writeFor (found : Option ProxyFilter) {e : ClusterError}
    (hne : spec = none → e ≠ .notFound) :
    (writeFor id l subset spec found).isFailure (.error e) = true := by
  refine ClusterCall.isFailure_error (Decidable.or_iff_not_imp_right.2 fun he p => ?_)
  exact writeFor_ne_deleteFilter found (fun hs => he (hne hs)) p

/-- An application that fails after its write has failed because of it. -/
theorem Closes.failed (h : Closes R spec u q counts y w') (hy : ∃ e, y = .error e) :
    (⟨.call (writeFor id l subset spec found), q⟩ : Event).isFailedFilterCall = true := by
  obtain ⟨e, rfl⟩ := hy
  rcases h with ⟨e', rfl, hne, -, -, -⟩ | ⟨-, hy, -⟩
  · exact Event.isFailedFilterCall_of_isFailure (filterPlace_writeFor found)
      (isFailure_writeFor found hne)
  · cases hy

variable {h : Held}

/-- The write has its effect, or none: it may have had it although it was answered with an error. -/
theorem held_of_effect (heffect : (∃ e, q = .error e) ∧ u.held = h ∨
      ∃ version, u.held = h.after version (writeFor id l subset spec found)) :
    u.held = { h with filters := u.held.filters } := by
  rcases heffect with ⟨-, hu⟩ | ⟨version, hu⟩
  · rw [hu]
  · rw [hu]
    exact (after_writeFor h version found).1

/-- The other filters are as they were, whether the write had its effect or not. -/
theorem frame_of_effect (heffect : (∃ e, q = .error e) ∧ u.held = h ∨
      ∃ version, u.held = h.after version (writeFor id l subset spec found))
    {p : ResourceId} (hp : p ≠ filterPlace id subset) : u.held.filters[p]? = h.filters[p]? := by
  rcases heffect with ⟨-, hu⟩ | ⟨version, hu⟩
  · rw [hu]
  · rw [hu]
    exact (after_writeFor h version found).2 p hp

/-- After an application that succeeds the filter is what it is to be, unless it was to be deleted
and the cluster has answered that there is none. -/
theorem Closes.brought (hcloses : Closes R spec u q counts (.ok ()) w')
    (heffect : (∃ e, q = .error e) ∧ u.held = h ∨
      ∃ version, u.held = h.after version (writeFor id l subset spec found)) :
    u.held.filters[filterPlace id subset]?.map (·.spec) = spec ∨
      spec = none ∧ q = .error .notFound := by
  rcases hcloses with ⟨e, -, -, hy, -⟩ | ⟨⟨a, rfl⟩ | hdenied, -⟩
  · cases hy
  · rcases heffect with ⟨⟨e, he⟩, -⟩ | ⟨version, hu⟩
    · cases he
    · left
      rw [hu]
      exact map_spec_after_writeFor h version found
  · exact .inr hdenied

end Write

/-! ### The three ways of an application -/

section Ways

variable {v : World} {found : Option ProxyFilter}

/-- The filter cannot be read. -/
theorem broughtTo_of_unread {p : ResourceId} {e : ClusterError} (hv : w'.held = w.held) :
    BroughtTo R p spec w [⟨.call (.filter p), .error e⟩] (.error (.cluster e)) w' where
  held := by rw [hv]
  frame q _ := by rw [hv]
  calls := Trace.forall_calls_cons rfl (by simp)
  observed := rfl
  failed _ := ⟨_, List.mem_cons_self,
    Event.isFailedFilterCall_of_isFailure rfl (ClusterCall.isFailure_error (.inl nofun))⟩
  settled _ := Trace.forall_calls_cons rfl (by simp)
  unwritten hy := by cases hy
  present hy := by cases hy
  absent hy := by cases hy

/-- The filter is right already. -/
theorem broughtTo_of_right {p : ResourceId} (hv : w'.held = w.held)
    (hright : w.held.filters[p]?.map (·.spec) = spec) :
    BroughtTo R p spec w [⟨.call (.filter p), .ok found⟩] (.ok ()) w' where
  held := by rw [hv]
  frame q _ := by rw [hv]
  calls := Trace.forall_calls_cons rfl (by simp)
  observed := rfl
  failed hy := by simp at hy
  settled _ := Trace.forall_calls_cons rfl (by simp)
  unwritten _ _ := hright
  present _ _ := by rw [hv, hright]
  absent _ hs := .inl (by rw [hv]; simpa [hs] using hright)

/-- The filter is not right, and is written. -/
theorem broughtTo_of_write (hR : R.Sound) {u : World} {counts : Trace}
    {q : (writeFor id l subset spec found).Reply} (hv : v.held = w.held)
    (hwrong : w.held.filters[filterPlace id subset]?.map (·.spec) ≠ spec)
    (hwrite : R v (.call (writeFor id l subset spec found)) q u)
    (hcloses : Closes R spec u q counts y w') :
    BroughtTo R (filterPlace id subset) spec w
      (⟨.call (.filter (filterPlace id subset)), .ok found⟩ ::
        ⟨.call (writeFor id l subset spec found), q⟩ :: counts) y w' := by
  have hu := hcloses.held hR
  have hplace : (writeFor id l subset spec found).filterPlace? = some (filterPlace id subset) :=
    filterPlace_writeFor found
  -- the write may have had its effect although it failed
  have heffect := (hR hwrite).call
  rw [hv] at heffect
  exact
    { held := by
        rw [hu]
        exact held_of_effect heffect
      frame := fun p hp => by
        rw [hu]
        exact frame_of_effect heffect hp
      calls := Trace.forall_calls_cons rfl
        (Trace.forall_calls_cons hplace (by simp [hcloses.calls]))
      observed := by
        rw [Trace.observed, List.filter_cons_of_neg (by simp [Event.isObservation]),
          List.filter_cons_of_neg (by simp [Event.isObservation_of_filterPlace? hplace])]
        exact hcloses.observed
      failed := fun hy => ⟨_, List.mem_cons_of_mem _ List.mem_cons_self, hcloses.failed hy⟩
      settled := fun hright => absurd hright hwrong
      unwritten := fun _ hnone => by
        have hmesh := hnone _ (List.mem_cons_of_mem _ List.mem_cons_self)
        rw [writesMesh_writeFor] at hmesh
        cases hmesh
      present := by
        rintro rfl hs
        rw [hu]
        exact (hcloses.brought heffect).resolve_right fun hdenied => hs hdenied.1
      absent := by
        rintro rfl rfl
        -- either the write has been done, or the cluster has answered that nothing is there
        rcases hcloses.brought heffect with hgone | ⟨-, rfl⟩
        · left
          rw [hu]
          exact Option.map_eq_none_iff.1 hgone
        · exact .inr ⟨v, u, hwrite, hu.symm⟩ }

end Ways

/-- The application of one filter. -/
theorem broughtTo_of_runs_apply (hR : R.Sound) (h : Runs R (apply id l subset spec).run w tr y w') :
    BroughtTo R (filterPlace id subset) spec w tr y w' := by
  obtain ⟨r, v, rest, hget, rfl, hr⟩ := runs_apply h
  have hv : v.held = w.held := (hR hget).held_of_isQuiet rfl
  rcases hr with ⟨e, rfl, rfl, rfl, rfl⟩ | ⟨found, rfl, hfound, rfl, rfl, rfl⟩ |
    ⟨found, rfl, hfound, q, u, counts, hwrite, rfl, hcloses⟩
  · exact broughtTo_of_unread hv
  · -- what was read is what was there
    exact broughtTo_of_right hv (by rw [← (hR hget).filter, hfound])
  · exact broughtTo_of_write hR hv (by rw [← (hR hget).filter]; exact hfound) hwrite hcloses

/-- Where the cluster does not deny a filter, one that is to be gone is gone. -/
theorem BroughtTo.absent_of_truthful (hR : R.Truthful) {p : ResourceId}
    (h : BroughtTo R p none w tr (.ok ()) w') : w'.held.filters[p]? = none := by
  rcases h.absent rfl rfl with h | ⟨v, v', hdelete, hv⟩
  · exact h
  · rw [← hv]
    exact hR hdelete rfl

end ProxyFilter

namespace Pass

open ProxyFilter (BroughtTo)

variable {R : Answering} {id : ResourceId} {l : Limiter} {w w' : World} {tr : Trace}

/-! ## All filters of a limiter

They are applied one after another, in the order of their subsets, and a failure is noted and passed
over. -/

/-- What is noted of the filter of a subset once its application has come to `y`. -/
structure Applying.Notes (a : Applying) (subset : String) (spec : Option FilterSpec)
    (y : Except PassError Unit) (a' : Applying) : Prop where
  keeps : ∀ n ∈ a.written, n ∈ a'.written
  only : ∀ n ∈ a'.written, n ∈ a.written ∨ n = subset
  /-- A subset is written down unless its filter is gone for sure. -/
  writes : spec ≠ none ∨ y ≠ .ok () → subset ∈ a'.written
  ok : a'.failure = none → y = .ok () ∧ a.failure = none
  fails : a'.failure ≠ none → a.failure ≠ none ∨ ∃ e, y = .error e

/-- A run of the application of one filter among many is a run of its application alone, and a note
of what it came to. -/
theorem runs_applyOne {a a' : Applying} {subset : String} {spec : Option FilterSpec}
    (h : Runs R (applyOne id l a subset spec) w tr a' w') :
    ∃ y, Runs R (ProxyFilter.apply id l subset spec).run w tr y w' ∧ a.Notes subset spec y a' := by
  have hmem : ∀ n, n ∈ a.written.insert subset ↔ n = subset ∨ n ∈ a.written := by
    intro n
    rw [Std.ExtTreeSet.mem_insert, Std.LawfulEqCmp.compare_eq_iff_eq, eq_comm]
  unfold applyOne at h
  obtain ⟨tr₁, y, v, tr₂, h₁, h₂, rfl⟩ := Program.runs_bind.1 h
  refine ⟨y, ?_⟩
  -- a failure is noted instead of being passed on, so the subset stays written down
  cases y with
  | ok u =>
    obtain ⟨rfl, rfl, rfl⟩ := runs_done.1 h₂
    refine ⟨by rw [List.append_nil]; exact h₁, ?_⟩
    cases spec with
    | none =>
      exact
        { keeps := fun n hn => hn
          only := fun n hn => .inl hn
          writes := fun hw => by simp at hw
          ok := fun hf => ⟨rfl, hf⟩
          fails := fun hf => .inl hf }
    | some spec =>
      exact
        { keeps := fun n hn => (hmem n).2 (.inr hn)
          only := fun n hn => ((hmem n).1 hn).symm
          writes := fun _ => (hmem subset).2 (.inl rfl)
          ok := fun hf => ⟨rfl, hf⟩
          fails := fun hf => .inl hf }
  | error e =>
    obtain ⟨rfl, rfl, rfl⟩ := runs_done.1 h₂
    refine ⟨by rw [List.append_nil]; exact h₁, ?_⟩
    exact
      { keeps := fun n hn => (hmem n).2 (.inr hn)
        only := fun n hn => ((hmem n).1 hn).symm
        writes := fun _ => (hmem subset).2 (.inl rfl)
        ok := fun hf => by
          cases hfa : a.failure <;> simp [hfa] at hf
        fails := fun _ => .inr ⟨e, rfl⟩ }

/-- What the application of filters comes to, given the subsets and what their filters are to be. -/
structure AllBroughtTo (R : Answering) (id : ResourceId)
    (entries : List (String × Option FilterSpec))
    (a : Applying) (w : World) (tr : Trace) (a' : Applying) (w' : World) : Prop where
  /-- Nothing but filters is changed. -/
  held : w'.held = { w.held with filters := w'.held.filters }
  /-- Only filters of the subsets are changed. -/
  frame : ∀ p, (∀ e ∈ entries, p ≠ filterPlace id e.1) → w'.held.filters[p]? = w.held.filters[p]?
  calls : ∀ c ∈ tr.calls, ∃ e ∈ entries, c.filterPlace? = some (filterPlace id e.1)
  observed : tr.observed = []
  /-- The subsets with a filter are among those written down. -/
  written_of_mem : ∀ n, n ∈ a.written ∨ (∃ spec, (n, some spec) ∈ entries) → n ∈ a'.written
  mem_of_written : ∀ n ∈ a'.written, n ∈ a.written ∨ ∃ spec, (n, spec) ∈ entries
  /-- A failure stays. -/
  stays : a.failure ≠ none → a'.failure ≠ none
  failed : a'.failure ≠ none → a.failure ≠ none ∨ ∃ event ∈ tr, event.isFailedFilterCall = true
  /-- If all filters are right, none is written. -/
  settled : (∀ e ∈ entries, w.held.filters[filterPlace id e.1]?.map (·.spec) = e.2) →
    ∀ c ∈ tr.calls, c.writesMesh = false
  /-- Only if all filters are right, none is written and none fails. -/
  unwritten : a'.failure = none → (∀ c ∈ tr.calls, c.writesMesh = false) →
    ∀ e ∈ entries, w.held.filters[filterPlace id e.1]?.map (·.spec) = e.2
  /-- Without a failure the filters that are to be there are right. -/
  present : a'.failure = none → ∀ n spec, (n, some spec) ∈ entries →
    w'.held.filters[filterPlace id n]?.map (·.spec) = some spec
  /-- A filter that is to be gone is gone or written down. -/
  tracked : R.Truthful → ∀ n, (n, none) ∈ entries →
    n ∈ a'.written ∨ w'.held.filters[filterPlace id n]? = none
  /-- Without a failure it is gone. -/
  absent : R.Truthful → a'.failure = none → ∀ n, (n, none) ∈ entries →
    w'.held.filters[filterPlace id n]? = none

/-! ### The first filter and the others

The filters stand in different places, so neither what is done about the first nor what is done
about the others touches what the other part brings about. The facts about all of them follow one by
one. -/

section First

variable {subset : String} {spec : Option FilterSpec} {more : List (String × Option FilterSpec)}
  {a a₁ a' : Applying} {v : World} {tr₁ tr₂ : Trace} {y : Except PassError Unit}

/-- The first filter was applied and noted, and then the others. -/
structure FirstThenMore (R : Answering) (id : ResourceId) (subset : String)
    (spec : Option FilterSpec)
    (more : List (String × Option FilterSpec)) (a : Applying) (w : World) (tr₁ : Trace)
    (y : Except PassError Unit) (a₁ : Applying) (v : World) (tr₂ : Trace) (a' : Applying)
    (w' : World) : Prop where
  elsewhere : ∀ e ∈ more, filterPlace id subset ≠ filterPlace id e.1
  first : BroughtTo R (filterPlace id subset) spec w tr₁ y v
  noted : a.Notes subset spec y a₁
  rest : AllBroughtTo R id more a₁ v tr₂ a' w'

namespace FirstThenMore

/-- The first filter stays as its own application has left it. -/
theorem first_stays (h : FirstThenMore R id subset spec more a w tr₁ y a₁ v tr₂ a' w') :
    w'.held.filters[filterPlace id subset]? = v.held.filters[filterPlace id subset]? :=
  h.rest.frame _ h.elsewhere

/-- The others are found as they were at first. -/
theorem later_stay (h : FirstThenMore R id subset spec more a w tr₁ y a₁ v tr₂ a' w') :
    ∀ e ∈ more, v.held.filters[filterPlace id e.1]? = w.held.filters[filterPlace id e.1]? :=
  fun e he => h.first.frame _ (h.elsewhere e he).symm

/-- Without a failure in the end there was none at first. -/
theorem first_ok (h : FirstThenMore R id subset spec more a w tr₁ y a₁ v tr₂ a' w')
    (hf : a'.failure = none) : y = .ok () :=
  (h.noted.ok (Classical.not_not.1 fun hf₁ => h.rest.stays hf₁ hf)).1

/-- No filter of another limiter or subset is changed. -/
theorem frame (h : FirstThenMore R id subset spec more a w tr₁ y a₁ v tr₂ a' w') {p : ResourceId}
    (hp : ∀ e ∈ (subset, spec) :: more, p ≠ filterPlace id e.1) :
    w'.held.filters[p]? = w.held.filters[p]? := by
  rw [h.rest.frame p fun e he => hp e (List.mem_cons_of_mem _ he)]
  exact h.first.frame p (hp _ List.mem_cons_self)

/-- Each call is about one of the filters. -/
theorem calls (h : FirstThenMore R id subset spec more a w tr₁ y a₁ v tr₂ a' w') :
    ∀ c ∈ Trace.calls (tr₁ ++ tr₂),
      ∃ e ∈ (subset, spec) :: more, c.filterPlace? = some (filterPlace id e.1) := by
  rw [Trace.calls_append]
  intro c hc
  rcases List.mem_append.1 hc with hc | hc
  · exact ⟨_, List.mem_cons_self, h.first.calls c hc⟩
  · obtain ⟨e, he, hce⟩ := h.rest.calls c hc
    exact ⟨e, List.mem_cons_of_mem _ he, hce⟩

/-- A subset that was noted stays noted, and each one with a filter is. -/
theorem written_of_mem (h : FirstThenMore R id subset spec more a w tr₁ y a₁ v tr₂ a' w')
    {n : String}
    (hn : n ∈ a.written ∨ ∃ s, (n, some s) ∈ (subset, spec) :: more) : n ∈ a'.written := by
  rcases hn with hn | ⟨s, hs⟩
  · exact h.rest.written_of_mem n (.inl (h.noted.keeps n hn))
  · rcases List.mem_cons.1 hs with hs | hs
    · obtain ⟨rfl, rfl⟩ := Prod.mk.inj hs
      exact h.rest.written_of_mem n (.inl (h.noted.writes (.inl (by simp))))
    · exact h.rest.written_of_mem n (.inr ⟨s, hs⟩)

/-- Only subsets whose filters were applied come to be noted. -/
theorem mem_of_written (h : FirstThenMore R id subset spec more a w tr₁ y a₁ v tr₂ a' w')
    {n : String} (hn : n ∈ a'.written) : n ∈ a.written ∨ ∃ s, (n, s) ∈ (subset, spec) :: more := by
  rcases h.rest.mem_of_written n hn with hn | ⟨s, hs⟩
  · rcases h.noted.only n hn with hn | rfl
    · exact .inl hn
    · exact .inr ⟨spec, List.mem_cons_self⟩
  · exact .inr ⟨s, List.mem_cons_of_mem _ hs⟩

/-- Whichever of the filters fails, a call about it has failed. -/
theorem failed (h : FirstThenMore R id subset spec more a w tr₁ y a₁ v tr₂ a' w')
    (hf : a'.failure ≠ none) :
    a.failure ≠ none ∨ ∃ event ∈ tr₁ ++ tr₂, event.isFailedFilterCall = true := by
  rcases h.rest.failed hf with hf₁ | ⟨event, hevent, hfailed⟩
  · rcases h.noted.fails hf₁ with hf | hy
    · exact .inl hf
    · obtain ⟨event, hevent, hfailed⟩ := h.first.failed hy
      exact .inr ⟨event, List.mem_append_left _ hevent, hfailed⟩
  · exact .inr ⟨event, List.mem_append_right _ hevent, hfailed⟩

/-- If all filters are right, each of them is found right when it is its turn. -/
theorem settled (h : FirstThenMore R id subset spec more a w tr₁ y a₁ v tr₂ a' w')
    (hright : ∀ e ∈ (subset, spec) :: more,
      w.held.filters[filterPlace id e.1]?.map (·.spec) = e.2) :
    ∀ c ∈ Trace.calls (tr₁ ++ tr₂), c.writesMesh = false := by
  rw [Trace.calls_append]
  intro c hc
  rcases List.mem_append.1 hc with hc | hc
  · exact h.first.settled (hright _ List.mem_cons_self) c hc
  · refine h.rest.settled (fun e he => ?_) c hc
    rw [h.later_stay e he]
    exact hright e (List.mem_cons_of_mem _ he)

/-- If nothing is written and nothing fails, all filters were right at first. -/
theorem unwritten (h : FirstThenMore R id subset spec more a w tr₁ y a₁ v tr₂ a' w')
    (hf : a'.failure = none) (hnone : ∀ c ∈ Trace.calls (tr₁ ++ tr₂), c.writesMesh = false) :
    ∀ e ∈ (subset, spec) :: more, w.held.filters[filterPlace id e.1]?.map (·.spec) = e.2 := by
  rw [Trace.calls_append] at hnone
  intro e he
  rcases List.mem_cons.1 he with rfl | he
  · exact h.first.unwritten (h.first_ok hf) fun c hc => hnone c (List.mem_append_left _ hc)
  · rw [← h.later_stay e he]
    exact h.rest.unwritten hf (fun c hc => hnone c (List.mem_append_right _ hc)) e he

/-- A filter that is to be there is right in the end: nothing later touches it. -/
theorem present (h : FirstThenMore R id subset spec more a w tr₁ y a₁ v tr₂ a' w')
    (hf : a'.failure = none) {n : String} {s : FilterSpec}
    (hs : (n, some s) ∈ (subset, spec) :: more) :
    w'.held.filters[filterPlace id n]?.map (·.spec) = some s := by
  rcases List.mem_cons.1 hs with hs | hs
  · obtain ⟨rfl, rfl⟩ := Prod.mk.inj hs
    rw [h.first_stays]
    exact h.first.present (h.first_ok hf) (by simp)
  · exact h.rest.present hf n s hs

/-- The subset of a filter that is to be gone stays noted until the cluster has agreed that it
is. -/
theorem tracked (h : FirstThenMore R id subset spec more a w tr₁ y a₁ v tr₂ a' w') (hR : R.Truthful)
    {n : String} (hn : (n, none) ∈ (subset, spec) :: more) :
    n ∈ a'.written ∨ w'.held.filters[filterPlace id n]? = none := by
  rcases List.mem_cons.1 hn with hn | hn
  · obtain ⟨rfl, rfl⟩ := Prod.mk.inj hn
    by_cases hy : y = .ok ()
    · subst hy
      rw [h.first_stays]
      exact .inr (h.first.absent_of_truthful hR)
    · exact .inl (h.rest.written_of_mem n (.inl (h.noted.writes (.inr hy))))
  · exact h.rest.tracked hR n hn

/-- A filter that is to be gone is gone in the end. -/
theorem absent (h : FirstThenMore R id subset spec more a w tr₁ y a₁ v tr₂ a' w') (hR : R.Truthful)
    (hf : a'.failure = none) {n : String} (hn : (n, none) ∈ (subset, spec) :: more) :
    w'.held.filters[filterPlace id n]? = none := by
  rcases List.mem_cons.1 hn with hn | hn
  · obtain ⟨rfl, rfl⟩ := Prod.mk.inj hn
    have hy := h.first_ok hf
    subst hy
    rw [h.first_stays]
    exact h.first.absent_of_truthful hR
  · exact h.rest.absent hR hf n hn

/-- So the first filter and the others come to what all of them are to come to. -/
theorem allBroughtTo (h : FirstThenMore R id subset spec more a w tr₁ y a₁ v tr₂ a' w') :
    AllBroughtTo R id ((subset, spec) :: more) a w (tr₁ ++ tr₂) a' w' where
  held := by rw [h.rest.held, h.first.held]
  frame _ hp := h.frame hp
  calls := h.calls
  observed := by rw [Trace.observed_append, h.first.observed, h.rest.observed]; rfl
  written_of_mem _ hn := h.written_of_mem hn
  mem_of_written _ hn := h.mem_of_written hn
  stays hf := h.rest.stays fun hf₁ => hf (h.noted.ok hf₁).2
  failed := h.failed
  settled := h.settled
  unwritten := h.unwritten
  present hf _ _ hs := h.present hf hs
  tracked hR _ hn := h.tracked hR hn
  absent hR hf _ hn := h.absent hR hf hn

end FirstThenMore

end First

/-- Without filters there is nothing to apply. -/
theorem allBroughtTo_nil (R : Answering) (id : ResourceId) (a : Applying) (w : World) :
    AllBroughtTo R id [] a w [] a w where
  held := rfl
  frame _ _ := rfl
  calls := by simp
  observed := rfl
  written_of_mem := by simp
  mem_of_written _ hn := .inl hn
  stays hf := hf
  failed hf := .inl hf
  settled _ := by simp
  unwritten _ _ := by simp
  present _ := by simp
  tracked _ := by simp
  absent _ _ := by simp

/-- The application of filters, one for each subset. -/
theorem allBroughtTo_of_runs (hR : R.Sound) {entries : List (String × Option FilterSpec)}
    (hnodup : (entries.map Prod.fst).Nodup) {a a' : Applying}
    (h : Runs R (applyAll id l a entries) w tr a' w') : AllBroughtTo R id entries a w tr a' w' := by
  induction entries generalizing a w tr with
  | nil =>
    obtain ⟨rfl, rfl, rfl⟩ := runs_done.1 h
    exact allBroughtTo_nil R id a' w'
  | cons entry more ih =>
    obtain ⟨subset, spec⟩ := entry
    obtain ⟨tr₁, a₁, v, tr₂, h₁, h₂, rfl⟩ := Program.runs_bind.1 h
    obtain ⟨hfresh, hmore⟩ := List.nodup_cons.1 hnodup
    obtain ⟨y, hrun, hnote⟩ := runs_applyOne h₁
    have hparts : FirstThenMore R id subset spec more a w tr₁ y a₁ v tr₂ a' w' :=
      { elsewhere := fun e he heq =>
          -- subsets of one limiter with filters in one place would have one name
          hfresh (List.mem_map.2 ⟨e, he, (filterPlace_injective heq).symm⟩)
        first := ProxyFilter.broughtTo_of_runs_apply hR hrun
        noted := hnote
        rest := ih hmore h₂ }
    exact hparts.allBroughtTo

end Pass

end MeshLimiter
