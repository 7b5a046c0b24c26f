import MeshLimiter.Proofs.Compile.Keys
import MeshLimiter.Proofs.Pass.Application
import MeshLimiter.Proofs.Pass.Collection
import MeshLimiter.Proofs.Pass.Registration
/-!
# The course of a pass

A pass collects the metrics; if that succeeds, it merges the shared limits, applies the filters,
notes which subsets may have one, and writes the status. Only if all of that succeeds it notes what
it applied.

* **`Pass.runs_bringAbout`**: the part after the metrics are collected;
* **`Pass.runs_sync`**: a pass over a limiter of interest;
* **`Pass.runs_reconcile`**, **`Pass.runs_refresh`**: the passes with what they do before.
-/

namespace MeshLimiter

open Program (Runs runs_done runs_step)

namespace MaterialStore

/-- What the entry of a limiter holds once its service has been seen. -/
def seen (m : MaterialStore) (s : Settings) (id : ResourceId) (subsets : List Subset)
    (pods : List Pod) (replies : List QueryReply) : Entry :=
  ((m.lookup? id).getD {}).observe s id subsets pods replies

end MaterialStore

namespace Pass

variable {R : Answering} {s : Settings} {id : ResourceId} {l : Limiter} {c : Collected}
  {w w' : World} {tr : Trace} {y : Except PassError Unit}

/-- What a limiter comes to with what was collected. -/
def compiledOf (s : Settings) (id : ResourceId) (l : Limiter) (c : Collected) : Compiled :=
  MeshLimiter.compile id l.spec c.material c.subsets c.selector s.compile

/-- The filters to bring about, with the subsets that may have one. -/
def desiredOf (s : Settings) (id : ResourceId) (l : Limiter) (c : Collected)
    (written : SubsetNames) : List (String × Option FilterSpec) :=
  (desiredFilters (compiledOf s id l c).filters c.subsets written).toList

/-- What is noted of a limiter that was applied. -/
def appliedOf (l : Limiter) (c : Collected) : Applied :=
  { generation := l.metadata.generation
    spec := l.spec
    revision := c.revision }

/-- Calls that neither write a filter or the registry nor ask for a filter. -/
def Aside (tr : Trace) : Prop :=
  ∀ c ∈ tr.calls, c.filterPlace? = none ∧ c.writesMesh = false

/-- The end of a pass, once the status is written. -/
def conclude (id : ResourceId) (l : Limiter) (c : Collected) (registered : Except PassError Bool)
    (a : Applying) : Attempt PassError Unit := do
  match registered with
  | .error e => throw e
  | .ok _ => pure ()
  match a.failure with
  | some e => throw e
  | none => pure ()
  let _ : Unit ← (Program.step (.setApplied id (some (appliedOf l c))) :)

/-- If nothing has failed, what was applied is noted. -/
theorem runs_conclude (hR : R.Sound) {registered : Except PassError Bool} {a : Applying}
    (h : Runs R (conclude id l c registered a).run w tr y w') :
    (y = .ok () ∧ (∃ b, registered = .ok b) ∧ a.failure = none ∧
        tr = [⟨.setApplied id (some (appliedOf l c)), ()⟩] ∧
        w'.held = { w.held with applied := w.held.applied.insert id (appliedOf l c) }) ∨
      ((∃ e, y = .error e) ∧ ((∃ e, registered = .error e) ∨ a.failure ≠ none) ∧ tr = [] ∧
        w'.held = w.held) := by
  unfold conclude at h
  cases registered with
  | error e =>
    obtain ⟨rfl, rfl, rfl⟩ := Attempt.runs_throw_bind.1 h
    -- the registry could not be merged
    exact .inr ⟨⟨e, rfl⟩, .inl ⟨e, rfl⟩, rfl, rfl⟩
  | ok b =>
    dsimp only at h
    split at h
    · -- a filter has failed
      next e he =>
      obtain ⟨rfl, rfl, rfl⟩ := Attempt.runs_throw_bind.1 h
      exact .inr ⟨⟨e, rfl⟩, .inr (by simp [he]), rfl, rfl⟩
    · next hfailure =>
      obtain ⟨u, v, rest, hset, rfl, hpure⟩ := Attempt.runs_step_bind.1 h
      obtain ⟨rfl, rfl, rfl⟩ := Attempt.runs_pure.1 hpure
      exact .inl ⟨rfl, ⟨b, rfl⟩, hfailure, rfl, (hR hset).setApplied⟩

/-- The end of a pass with the status, which is written if it has changed. -/
def close (s : Settings) (id : ResourceId) (l : Limiter) (c : Collected)
    (registered : Except PassError Bool) (a : Applying) : Attempt PassError Unit := do
  let status := statusOf (compiledOf s id l c) c.material
  if l.status ≠ some status then
    let _ : Unit ← Attempt.call .cluster (.patchStatus id status)
  conclude id l c registered a

/-- The status was as it is to be, or it was written. -/
def StatusWritten (s : Settings) (id : ResourceId) (l : Limiter) (c : Collected) (tr : Trace) :
    Prop :=
  l.status ≠ some (statusOf (compiledOf s id l c) c.material) → tr.Succeeds .status

/-- The end of a pass writes the status if it has changed, and notes what was applied if all went
well. -/
theorem runs_close (hR : R.Sound) {registered : Except PassError Bool} {a : Applying}
    (h : Runs R (close s id l c registered a).run w tr y w') :
    (∀ event ∈ tr,
      (∃ r, event = ⟨.call (.patchStatus id (statusOf (compiledOf s id l c) c.material)),
        r⟩) ∨ event = ⟨.setApplied id (some (appliedOf l c)), ()⟩) ∧
      ((y = .ok () ∧ (∃ b, registered = .ok b) ∧ a.failure = none ∧ StatusWritten s id l c tr ∧
          w'.held = { w.held with applied := w.held.applied.insert id (appliedOf l c) }) ∨
        ((∃ e, y = .error e) ∧
          ((∃ e, registered = .error e) ∨ a.failure ≠ none ∨ ¬ StatusWritten s id l c tr) ∧
          w'.held = w.held)) := by
  unfold close at h
  dsimp only at h
  split at h
  · -- the status is to be written; if that fails, nothing more is done
    next hchanged =>
    obtain ⟨r, v, rest, hpatch, rfl, hrest⟩ := Attempt.runs_call_bind.1 h
    have hv : v.held = w.held := (hR hpatch).held_of_isQuiet rfl
    have hstatus : (ClusterCall.patchStatus id (statusOf (compiledOf s id l c) c.material)).concern
        = .status := rfl
    rcases hrest with ⟨x, rfl, hrun⟩ | ⟨e, rfl, rfl, rfl, rfl⟩
    · rcases runs_conclude hR hrun with ⟨rfl, hregistered, hfailure, rfl, hw'⟩ |
        ⟨hy, hfailed, rfl, hw'⟩
      · exact ⟨List.forall_mem_cons.2 ⟨.inl ⟨_, rfl⟩, List.forall_mem_singleton.2 (.inr rfl)⟩,
          .inl ⟨rfl, hregistered, hfailure,
            fun _ => (Trace.succeeds_cons hstatus).2 ⟨rfl, List.forall_mem_nil _⟩, by rw [hw', hv]⟩⟩
      · exact ⟨List.forall_mem_singleton.2 (.inl ⟨_, rfl⟩),
          .inr ⟨hy, hfailed.imp_right .inl, by rw [hw', hv]⟩⟩
    · refine ⟨List.forall_mem_singleton.2 (.inl ⟨_, rfl⟩),
        .inr ⟨⟨_, rfl⟩, .inr (.inr fun hs => ?_), hv⟩⟩
      cases ((Trace.succeeds_cons hstatus).1 (hs hchanged)).1
  · next hsame =>
    rcases runs_conclude hR h with ⟨rfl, hregistered, hfailure, rfl, hw'⟩ | ⟨hy, hfailed, rfl, hw'⟩
    · exact ⟨by simp, .inl ⟨rfl, hregistered, hfailure, fun hs => absurd hs hsame, hw'⟩⟩
    · exact ⟨by simp, .inr ⟨hy, hfailed.imp_right .inl, hw'⟩⟩

/-- The part of a pass after the metrics are collected, cut into what it does one after another. -/
theorem runs_bringAbout_cut (hR : R.Sound) (h : Runs R (bringAbout s id l c).run w tr y w') :
    ∃ (registered : Except PassError Bool) (w₁ w₂ w₃ w₄ : World) (a : Applying)
      (tr₁ tr₂ tr₃ : Trace),
      Runs R (Registry.merge s id (compiledOf s id l c).shared).run w tr₁ registered w₁ ∧
      w₂.held = w₁.held ∧
      Runs R (applyAll id l {} (desiredOf s id l c (w₁.held.written.getD id ∅))) w₂ tr₂ a w₃ ∧
      w₄.held = { w₃.held with written := w₃.held.written.insert id a.written } ∧
      Runs R (close s id l c registered a).run w₄ tr₃ y w' ∧
      tr = tr₁ ++ ⟨.findWritten id, w₁.held.written.getD id ∅⟩ ::
        (tr₂ ++ ⟨.setWritten id (some a.written), ()⟩ :: tr₃) := by
  -- the four stages are peeled off one after another, the registry first
  unfold bringAbout at h
  dsimp only at h
  obtain ⟨tr₁, registered, w₁, rest₁, hmerge, h₁, rfl⟩ := Attempt.runs_lift_bind.1 h
  obtain ⟨written, w₂, rest₂, hwritten, rfl, h₂⟩ := Attempt.runs_step_bind.1 h₁
  obtain ⟨tr₂, a, w₃, rest₃, hall, h₃, rfl⟩ := Attempt.runs_lift_bind.1 h₂
  obtain ⟨u, w₄, tr₃, hset, rfl, h₄⟩ := Attempt.runs_step_bind.1 h₃
  obtain rfl := (hR hwritten).findWritten
  exact ⟨registered, w₁, w₂, w₃, w₄, a, tr₁, tr₂, tr₃, hmerge,
    (hR hwritten).held_of_isQuiet rfl, hall, (hR hset).setWritten, h₄, rfl⟩

/-- The part of a pass after the metrics are collected. -/
theorem runs_bringAbout (hR : R.Sound) (h : Runs R (bringAbout s id l c).run w tr y w') :
    ∃ (registered : Except PassError Bool) (w₁ w₂ w₃ : World) (a : Applying) (tr₁ tr₂ rest : Trace),
      Runs R (Registry.merge s id (compiledOf s id l c).shared).run w tr₁ registered w₁ ∧
      w₂.held = w₁.held ∧
      Runs R (applyAll id l {} (desiredOf s id l c (w₁.held.written.getD id ∅))) w₂ tr₂ a w₃ ∧
      tr = tr₁ ++ ⟨.findWritten id, w₁.held.written.getD id ∅⟩ :: (tr₂ ++ rest) ∧
      rest.observed = [] ∧ Aside rest ∧
      ((y = .ok () ∧ (∃ b, registered = .ok b) ∧ a.failure = none ∧
          w'.held = { w₃.held with
            written := w₃.held.written.insert id a.written
            applied := w₃.held.applied.insert id (appliedOf l c) }) ∨
        (∃ e, y = .error e) ∧
          w'.held = { w₃.held with written := w₃.held.written.insert id a.written }) := by
  obtain ⟨registered, w₁, w₂, w₃, w₄, a, tr₁, tr₂, tr₃, hmerge, hw₂, hall, hw₄, hclose, rfl⟩ :=
    runs_bringAbout_cut hR h
  obtain ⟨hevents, hy⟩ := runs_close hR hclose
  rw [hw₄] at hy
  refine ⟨registered, w₁, w₂, w₃, a, tr₁, tr₂, _, hmerge, hw₂, hall, rfl, ?_, ?_, ?_⟩
  · -- what comes after the filters observes nothing
    refine List.filter_eq_nil_iff.2 (List.forall_mem_cons.2 ⟨nofun, fun event hevent => ?_⟩)
    rcases hevents event hevent with ⟨r, rfl⟩ | rfl <;> exact nofun
  · -- of the calls only the one of the status is left
    intro k hk
    obtain ⟨event, hevent, hcall⟩ := List.mem_filterMap.1 hk
    rcases List.mem_cons.1 hevent with rfl | hevent
    · cases hcall
    · rcases hevents event hevent with ⟨r, rfl⟩ | rfl <;> cases hcall
      exact ⟨rfl, rfl⟩
  · rcases hy with ⟨hy, hregistered, hfailure, -, hw'⟩ | ⟨hy, -, hw'⟩
    · exact .inl ⟨hy, hregistered, hfailure, hw'⟩
    · exact .inr ⟨hy, hw'⟩

/-- A pass over a limiter of interest, cut where its metrics are collected. -/
theorem runs_sync_cut (hR : R.Sound) (h : Runs R (sync s id l).run w tr y w')
    (hinterest : w.held.interest.contains id = true) :
    ∃ (v v₁ : World) (z : Except CollectionError Collected) (tr₁ tr₂ : Trace),
      v.held = { w.held with store := (w.held.store.entry id).2 } ∧
      Runs R (Collected.refresh s id (w.held.store.entry id).1).run v tr₁ z v₁ ∧
      tr = ⟨.makeEntry id, (w.held.store.entry id).1⟩ :: ⟨.isInterested id, true⟩ ::
        ⟨.findEntry id, some (w.held.store.entry id).1⟩ :: (tr₁ ++ tr₂) ∧
      ((∃ c v₂, z = .ok c ∧ Runs R (bringAbout s id l c).run v₁ tr₂ y v₂ ∧ w'.held = v₂.held) ∨
        (∃ e, z = .error e) ∧ tr₂ = [] ∧ (∃ e, y = .error e) ∧ w'.held = v₁.held) := by
  unfold sync at h
  obtain ⟨e, v₀, rest₀, hmake, rfl, h₁⟩ := Attempt.runs_step_bind.1 h
  obtain ⟨he, hv₀⟩ := (hR hmake).makeEntry
  obtain ⟨v₁, v', hv₁, hbody, hw'⟩ := Attempt.Runs.of_holding h₁
  obtain ⟨wanted, v₂, rest₂, hwanted, rfl, h₂⟩ := Attempt.runs_step_bind.1 hbody
  obtain ⟨current, v₃, rest₃, hcurrent, rfl, h₃⟩ := Attempt.runs_step_bind.1 h₂
  have hv₂ : v₂.held = v₀.held := by rw [(hR hwanted).held_of_isQuiet rfl, hv₁]
  have hv₃ : v₃.held = v₀.held := by rw [(hR hcurrent).held_of_isQuiet rfl, hv₂]
  -- the limiter is of interest, and its entry is the one just made or found
  have hwanted : wanted = true := by
    rw [(hR hwanted).isInterested, hv₁, hv₀]
    exact hinterest
  have hcurrent : current = some e := by
    rw [(hR hcurrent).findEntry, hv₂, hv₀, he]
    exact MaterialStore.find?_entry ..
  subst hwanted
  subst hcurrent
  rw [if_neg (by decide), if_neg fun hne => hne rfl] at h₃
  subst he
  rw [hv₀] at hv₃
  rcases Attempt.runs_bind.1 h₃ with ⟨tr₁, c, v, tr₂, hcollect, hbring, rfl⟩ |
    ⟨error, hcollect, rfl⟩
  · obtain ⟨z, hcollect, hz⟩ := Attempt.runs_adapt.1 hcollect
    cases z with
    | ok c' =>
      obtain rfl := Except.ok.inj hz
      exact ⟨v₃, v, _, tr₁, tr₂, hv₃, hcollect, rfl, .inl ⟨c, v', rfl, hbring, hw'⟩⟩
    | error error => cases hz
  · obtain ⟨z, hcollect, hz⟩ := Attempt.runs_adapt.1 hcollect
    cases z with
    | ok c' => cases hz
    | error error' =>
      exact ⟨v₃, v', _, rest₃, [], hv₃, hcollect, by rw [List.append_nil]; rfl,
        .inr ⟨⟨error', rfl⟩, rfl, ⟨_, rfl⟩, hw'⟩⟩

/-- A pass over a limiter of interest: the metrics are collected into its entry, and if that
succeeds the rest follows. -/
theorem runs_sync (hR : R.Sound) (h : Runs R (sync s id l).run w tr y w')
    (hinterest : w.held.interest.contains id = true) :
    ∃ (o : Observation) (v : World) (tr₁ tr₂ : Trace), o.Fits ∧ tr = tr₁ ++ tr₂ ∧
      tr₁.observed = o.events s id ∧ Aside tr₁ ∧ (∀ k, k ≠ .service → tr₁.about k = []) ∧
      ((∃ service subsets pods replies, o = .complete service subsets pods replies ∧
          v.held = { w.held with
            store := (w.held.store.entry id).2.put (w.held.store.entry id).1
              (w.held.store.seen s id subsets pods replies) } ∧
          ∃ v' : World, Runs R (bringAbout s id l (Collected.ofEntry
            (w.held.store.seen s id subsets pods replies) service subsets)).run v tr₂ y v' ∧
            w'.held = v'.held) ∨
        (∀ service subsets pods replies, o ≠ .complete service subsets pods replies) ∧ tr₂ = [] ∧
          (∃ e, y = .error e) ∧ w'.held = { w.held with store := (w.held.store.entry id).2 }) := by
  obtain ⟨v, v₁, z, tr₁, tr₂, hv, hcollect, rfl, hrest⟩ := runs_sync_cut hR h hinterest
  obtain ⟨o, hfits, hobserved, hcalls, hfollows⟩ :=
    Collected.runs_refresh hR (Attempt.runs_adapt.2 ⟨z, hcollect, rfl⟩)
  have habout : ∀ k, k ≠ .service → Trace.about k (⟨.makeEntry id, (w.held.store.entry id).1⟩ ::
      ⟨.isInterested id, true⟩ :: ⟨.findEntry id, some (w.held.store.entry id).1⟩ :: tr₁) = [] :=
    fun k hk => hcollect.about_eq_nil (Collected.takes_refresh s id _) fun c hc => by
      rw [Collected.concern_of_asks hc]
      exact hk.symm
  rcases hrest with ⟨c, v₂, rfl, hbring, hw'⟩ | ⟨⟨e, rfl⟩, rfl, hy, hw'⟩
  · rcases hfollows with ⟨service, subsets, pods, replies, ho, hc, hv₁⟩ | ⟨-, ⟨error, hc⟩, -⟩
    · -- the metrics are there, and the rest of the pass starts from the entry with them
      obtain rfl := Except.ok.inj hc
      have hseen : ((w.held.store.entry id).2.get (w.held.store.entry id).1).observe s id
          subsets pods replies = w.held.store.seen s id subsets pods replies := by
        rw [MaterialStore.get_entry]
        rfl
      rw [hv] at hv₁ hbring
      dsimp only at hv₁ hbring
      rw [hseen] at hv₁ hbring
      exact ⟨o, v₁, _ :: _ :: _ :: tr₁, tr₂, hfits, rfl, hobserved, hcalls, habout,
        .inl ⟨service, subsets, pods, replies, ho, hv₁, v₂, hbring, hw'⟩⟩
    · cases hc
  · rcases hfollows with ⟨service, subsets, pods, replies, ho, hc, hv₁⟩ | ⟨ho, -, hv₁⟩
    · cases hc
    · refine ⟨o, v₁, _, [], hfits, (List.append_nil _).symm, ?_⟩
      rw [List.append_nil]
      exact ⟨hobserved, hcalls, habout, .inr ⟨ho, rfl, hy, by rw [hw', hv₁, hv]⟩⟩

/-! ## What a pass does before

A pass first finds out for which limiter it is and whether it is to be done at all. Only then the
metrics are collected. -/

/-- The revision of what the entry of a limiter holds. -/
def revisionOf (m : MaterialStore) (id : ResourceId) : Option Nat :=
  (m.find? id).map fun e => (m.get e).revision

/-- A run within which a pass was run, after steps and before a count that change nothing else. -/
def Within (R : Answering) (s : Settings) (id : ResourceId) (l : Limiter) (held : Held) (tr : Trace)
    (y : Except PassError Unit) (w' : World) : Prop :=
  ∃ (v v' : World) (before tr₁ behind : Trace), v.held = held ∧
    Runs R (sync s id l).run v tr₁ y v' ∧ w'.held = v'.held ∧ tr = before ++ (tr₁ ++ behind) ∧
    before.calls = [] ∧ before.observed = [] ∧ behind.calls = [] ∧ behind.observed = []

/-- What is counted in the end changes nothing that is held. -/
theorem runs_recorded (hR : R.Sound) {t : Trigger}
    (h : Runs R (recorded t (sync s id l)).run w tr y w') : Within R s id l w.held tr y w' := by
  obtain ⟨tr₁, v, tr₂, hsync, rfl, ⟨rfl, rfl⟩ | ⟨e, hcount, rfl⟩⟩ := Attempt.Runs.of_noting h
  · exact ⟨w, _, [], tr₁, [], rfl, hsync, rfl, rfl, rfl, rfl, rfl, rfl⟩
  · exact ⟨w, v, [], tr₁, _, rfl, hsync, (hR hcount).held_of_isQuiet rfl, rfl, rfl, rfl, rfl, rfl⟩

/-- The end of the pass over a changed limiter, once the revision of its material is known. -/
def skipOrSync (s : Settings) (id : ResourceId) (l : Limiter) (revision : Option Nat) :
    Attempt PassError Unit := do
  let last : Option Applied ← (Program.step (.findApplied id) :)
  if isApplied last l revision then
    Program.count (.pass .spec .unchanged)
  else
    let _ : Unit ← (Program.step (.addInterest id) :)
    recorded .spec (sync s id l)

/-- It is passed over, or comes to be of interest and is synchronized. -/
theorem runs_skipOrSync (hR : R.Sound) {revision : Option Nat}
    (h : Runs R (skipOrSync s id l revision).run w tr y w') :
    (isApplied w.held.applied[id]? l revision = true ∧ y = .ok () ∧ w'.held = w.held ∧
        tr.calls = [] ∧ tr.observed = []) ∨
      Within R s id l { w.held with interest := w.held.interest.insert id } tr y w' := by
  unfold skipOrSync at h
  obtain ⟨last, v, rest, hlast, rfl, h₁⟩ := Attempt.runs_step_bind.1 h
  have hv : v.held = w.held := (hR hlast).held_of_isQuiet rfl
  obtain rfl := (hR hlast).findApplied
  split at h₁
  · -- the limiter is passed over
    next happlied =>
    obtain ⟨rfl, hcount, rfl⟩ := Attempt.runs_count.1 h₁
    exact .inl ⟨happlied, rfl, by rw [(hR hcount).held_of_isQuiet rfl, hv], rfl, rfl⟩
  · -- the limiter comes to be of interest before its metrics are collected
    obtain ⟨u, v₁, rest₁, hinterest, rfl, h₂⟩ := Attempt.runs_step_bind.1 h₁
    have hv₁ := (hR hinterest).addInterest
    rw [hv] at hv₁
    obtain ⟨v₂, v₃, before, tr₁, behind, hv₂, hsync, hw', rfl, hcalls, hobserved, hbehind⟩ :=
      runs_recorded hR h₂
    exact .inr ⟨v₂, v₃, _ :: _ :: before, tr₁, behind, by rw [hv₂, hv₁], hsync, hw', rfl, hcalls,
      hobserved, hbehind⟩

/-- The pass over a changed limiter: it is refused, or passed over, or comes to be of interest and
is synchronized. -/
theorem runs_reconcile (hR : R.Sound) (hkey : keyOf l = .ok id)
    (h : Runs R (reconcile s l).run w tr y w') :
    (l.spec.sets.isEmpty = true ∧ (∃ e, y = .error e) ∧ w'.held = w.held ∧ tr.calls = [] ∧
        tr.observed = []) ∨
      (isApplied w.held.applied[id]? l (revisionOf w.held.store id) = true ∧ y = .ok () ∧
        w'.held = w.held ∧ tr.calls = [] ∧ tr.observed = []) ∨
      Within R s id l { w.held with interest := w.held.interest.insert id } tr y w' := by
  unfold reconcile at h
  rcases Attempt.runs_bind.1 h with ⟨tr₁, id', v, tr₂, hid, h₁, rfl⟩ | ⟨e, hid, rfl⟩
  · obtain ⟨rfl, hok, rfl⟩ := runs_done.1 hid
    rw [hkey] at hok
    obtain rfl := Except.ok.inj hok
    dsimp only at h₁
    split at h₁
    · -- a limiter without rules is refused
      next hempty =>
      obtain ⟨v₁, rest, hcount, rfl, hthrow⟩ := Attempt.runs_count_bind.1 h₁
      obtain ⟨rfl, rfl, rfl⟩ := Attempt.runs_throw_bind.1 hthrow
      exact .inl ⟨hempty, ⟨_, rfl⟩, (hR hcount).held_of_isQuiet rfl, rfl, rfl⟩
    · obtain ⟨entry, v₁, rest, hentry, rfl, h₂⟩ := Attempt.runs_step_bind.1 h₁
      have hv₁ : v₁.held = v.held := (hR hentry).held_of_isQuiet rfl
      have hfound := (hR hentry).findEntry
      -- the revision is looked up in the entry, if there is one
      have hrevision : ∃ (v₂ : World) (before rest₂ : Trace), v₂.held = v.held ∧
          rest = before ++ rest₂ ∧ before.calls = [] ∧ before.observed = [] ∧
          Runs R (skipOrSync s id' l (revisionOf v.held.store id')).run v₂ rest₂ y w' := by
        cases entry with
        | none =>
          have hnone : revisionOf v.held.store id' = none := by
            rw [revisionOf, ← hfound]
            rfl
          rw [hnone]
          exact ⟨v₁, [], rest, hv₁, rfl, rfl, rfl, h₂⟩
        | some e =>
          obtain ⟨held, v₂, rest₂, hread, rfl, h₃⟩ := Attempt.runs_step_bind.1 h₂
          have hsome : revisionOf v.held.store id' = some held.revision := by
            rw [revisionOf, ← hfound, (hR hread).readEntry, hv₁]
            rfl
          rw [hsome]
          exact ⟨v₂, [_], rest₂, by rw [(hR hread).held_of_isQuiet rfl, hv₁], rfl, rfl, rfl, h₃⟩
      obtain ⟨v₂, before, rest₂, hv₂, rfl, hcalls, hobserved, h₃⟩ := hrevision
      rcases runs_skipOrSync hR h₃ with ⟨happlied, rfl, hw', hc, ho⟩ |
        ⟨v₃, v₄, before₂, tr₁, behind, hv₃, hsync, hw', rfl, hc, ho, hbehind⟩
      · rw [hv₂] at happlied hw'
        refine .inr (.inl ⟨happlied, rfl, hw', ?_, ?_⟩)
        · show Trace.calls (before ++ rest₂) = []
          rw [Trace.calls_append, hcalls, hc]
          rfl
        · show Trace.observed (before ++ rest₂) = []
          rw [Trace.observed_append, hobserved, ho]
          rfl
      · rw [hv₂] at hv₃
        refine .inr (.inr ⟨v₃, v₄, ⟨.findEntry id', entry⟩ :: (before ++ before₂), tr₁, behind, hv₃,
          hsync, hw', ?_, ?_, ?_, hbehind⟩)
        · simp
        · show Trace.calls (before ++ before₂) = []
          rw [Trace.calls_append, hcalls, hc]
          rfl
        · show Trace.observed (before ++ before₂) = []
          rw [Trace.observed_append, hobserved, ho]
          rfl
  · obtain ⟨-, hok, -⟩ := runs_done.1 hid
    rw [hkey] at hok
    cases hok

/-- The pass over a limiter whose metrics are to be looked at: only one of interest is
synchronized. -/
theorem runs_refresh (hR : R.Sound) (hkey : keyOf l = .ok id)
    (h : Runs R (refresh s l).run w tr y w') :
    (w.held.interest.contains id = false ∧ y = .ok () ∧ w'.held = w.held ∧ tr.calls = [] ∧
        tr.observed = []) ∨
      (w.held.interest.contains id = true ∧ Within R s id l w.held tr y w') := by
  unfold refresh at h
  rcases Attempt.runs_bind.1 h with ⟨tr₁, id', v, tr₂, hid, h₁, rfl⟩ | ⟨e, hid, rfl⟩
  · obtain ⟨rfl, hok, rfl⟩ := runs_done.1 hid
    rw [hkey] at hok
    obtain rfl := Except.ok.inj hok
    obtain ⟨wanted, v₁, rest, hwanted, rfl, h₂⟩ := Attempt.runs_step_bind.1 h₁
    have hv₁ : v₁.held = v.held := (hR hwanted).held_of_isQuiet rfl
    have hinterest := (hR hwanted).isInterested
    cases wanted with
    | false =>
      -- nobody is interested any more
      obtain ⟨rfl, rfl, rfl⟩ := Attempt.runs_pure.1 h₂
      exact .inl ⟨hinterest.symm, rfl, hv₁, rfl, rfl⟩
    | true =>
      obtain ⟨v₂, v₃, before, tr₁, behind, hv₂, hsync, hw', rfl, hcalls, hobserved, hbehind⟩ :=
        runs_recorded hR h₂
      exact .inr ⟨hinterest.symm, v₂, v₃, _ :: before, tr₁, behind, by rw [hv₂, hv₁],
        hsync, hw', rfl, hcalls, hobserved, hbehind⟩
  · -- a limiter without a key would not have come this far
    obtain ⟨-, hok, -⟩ := runs_done.1 hid
    rw [hkey] at hok
    cases hok

end Pass

end MeshLimiter
