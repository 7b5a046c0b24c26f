import MeshLimiter.Proofs.Pass.Effects
import MeshLimiter.Proofs.Program.Alone
/-!
# Histories of passes

Passes are taken one after another, over one limiter or several. Each starts from the world that the
one before it left behind.

* **`Pass.Taken`**: a pass that was taken, with its trace and its result;
* **`Pass.History`**: the passes taken since the controller started;
* **`Pass.Taken.Rest`**: the part of a pass after the metrics are collected;
* **`Pass.Taken.Ran.course`**: a pass does nothing, or fails to collect metrics, or collects them
  and has the effects of the rest.
-/

namespace MeshLimiter.Pass

open Program (Runs)

/-- What a limiter may be passed over for. -/
inductive Occasion where
  | changed
  | metrics
deriving DecidableEq

/-- The pass for an occasion. -/
def passFor (s : Settings) : Occasion → Limiter → Attempt PassError Unit
  | .changed => reconcile s
  | .metrics => refresh s

/-- A pass that was taken. -/
structure Taken where
  occasion : Occasion
  limiter : Limiter
  before : World
  trace : Trace
  result : Except PassError Unit
  after : World

namespace Taken

/-- The pass was taken in the way that a pass can be. -/
def Ran (R : Answering) (s : Settings) (t : Taken) : Prop :=
  Runs R (passFor s t.occasion t.limiter).run t.before t.trace t.result t.after

/-- The pass has collected metrics, and with them has gone on to filters and registry. -/
def Collects (s : Settings) (id : ResourceId) (t : Taken) (c : Collected) : Prop :=
  ∃ service subsets pods replies,
    (Observation.complete service subsets pods replies).Fits ∧
    t.trace.observed = (Observation.complete service subsets pods replies).events s id ∧
    c = .ofEntry (t.before.held.store.seen s id subsets pods replies) service subsets

/-- A pass that is taken with no other program beside it. -/
def alone (s : Settings) (w : World) (occasion : Occasion) (l : Limiter) : Taken :=
  let p := (passFor s occasion l).run
  { occasion
    limiter := l
    before := w
    trace := p.traceAlone w
    result := (p.runAlone w).1
    after := (p.runAlone w).2 }

end Taken

/-- The passes taken from a world on, and the world after them. -/
inductive History (R : Answering) (s : Settings) (w₀ : World) : List Taken → World → Prop where
  | start : History R s w₀ [] w₀
  | snoc {ts : List Taken} {t : Taken} (prior : History R s w₀ ts t.before) (ran : t.Ran R s) :
    History R s w₀ (ts ++ [t]) t.after

/-- Passes that are taken alone, one after another. -/
def takeAll (s : Settings) : World → List (Occasion × Limiter) → List Taken
  | _, [] => []
  | w, (occasion, l) :: more =>
    let t := Taken.alone s w occasion l
    t :: takeAll s t.after more

/-- The world after passes that are taken alone. -/
def afterAll (s : Settings) : World → List (Occasion × Limiter) → World
  | w, [] => w
  | w, (occasion, l) :: more => afterAll s (Taken.alone s w occasion l).after more

end MeshLimiter.Pass

namespace MeshLimiter

/-- What is held once a limiter is of interest, whatever its entry. -/
def Held.entered (h : Held) (id : ResourceId) : Held :=
  { h with
    interest := h.interest.insert id
    store := (h.store.entry id).2 }

/-- What is held once the entry of a limiter is up to date as well. -/
def Held.seen (h : Held) (id : ResourceId) (new : Entry) : Held :=
  { h with
    interest := h.interest.insert id
    store := (h.store.entry id).2.put (h.store.entry id).1 new }

end MeshLimiter

namespace MeshLimiter.Pass

variable {R : Answering} {s : Settings} {id : ResourceId}

/-- What is of interest already is not changed by coming to be of interest. -/
theorem insert_interest_of_contains {h : Held} (hi : h.interest.contains id = true) :
    { h with interest := h.interest.insert id } = h := by
  have hsame : h.interest.insert id = h.interest := by
    refine Std.ExtTreeSet.ext_contains fun k => ?_
    rw [Std.ExtTreeSet.contains_insert]
    by_cases hk : id = k
    · subst hk
      simp [hi]
    · have hk : ¬ compare id k = .eq := by simpa using hk
      simp [hk]
  rw [hsame]

namespace Taken

variable {t : Taken}

/-- What may become of a pass. -/
inductive Course (R : Answering) (s : Settings) (id : ResourceId) (t : Taken) : Prop where
  /-- The limiter is refused, or passed over. -/
  | idle (held : t.after.held = t.before.held) (calls : t.trace.calls = [])
    (observed : t.trace.observed = [])
  /-- The metrics could not be collected. -/
  | blind (collects : ∀ c, ¬ t.Collects s id c) (result : ∃ e, t.result = .error e)
    (aside : Aside t.trace) (held : t.after.held = t.before.held.entered id)
  /-- The metrics were collected, and the rest has followed. -/
  | seen (service : Service) (subsets : List Subset) (pods : List Pod) (replies : List QueryReply)
    (collects : t.Collects s id
      (.ofEntry (t.before.held.store.seen s id subsets pods replies) service subsets))
    (effects : Effects R s id t.limiter
      (.ofEntry (t.before.held.store.seen s id subsets pods replies) service subsets)
      (t.before.held.seen id (t.before.held.store.seen s id subsets pods replies))
      t.trace t.result t.after.held)

/-- A pass that collects metrics has at least asked for the service. -/
theorem Collects.observed_ne_nil {c : Collected} (h : t.Collects s id c) :
    t.trace.observed ≠ [] := by
  obtain ⟨service, subsets, pods, replies, -, hshown, -⟩ := h
  rw [hshown]
  exact List.cons_ne_nil _ _

/-- The metrics that a pass has collected can be read from its trace. -/
theorem Collects.eq {c c' : Collected} (h : t.Collects s id c) (h' : t.Collects s id c') :
    c = c' := by
  obtain ⟨service, subsets, pods, replies, hfits, hshown, rfl⟩ := h
  obtain ⟨service', subsets', pods', replies', hfits', hshown', rfl⟩ := h'
  have hsame := Observation.eq_of_events_eq hfits hfits' (hshown.symm.trans hshown')
  cases hsame
  rfl

/-- The part of a pass after the metrics are collected, as a run of its own within the pass. No
other part asks for a filter or writes, or is about anything but the service. -/
def Rest (R : Answering) (s : Settings) (id : ResourceId) (t : Taken) (c : Collected)
    (new : Entry) :
    Prop :=
  ∃ (v v' : World) (tr : Trace), v.held = t.before.held.seen id new ∧ v'.held = t.after.held ∧
    Program.Runs R (bringAbout s id t.limiter c).run v tr t.result v' ∧
    (∀ event ∈ tr, event ∈ t.trace) ∧
    (∀ k, k ≠ .service → t.trace.about k = tr.about k) ∧
    ∀ k ∈ t.trace.calls, k ∈ tr.calls ∨ k.filterPlace? = none ∧ k.writesMesh = false

/-- A pass that is run fails to collect metrics, or collects them and goes on to the rest. -/
theorem rest_of_within (hR : R.Sound)
    (h : Within R s id t.limiter { t.before.held with interest := t.before.held.interest.insert id }
      t.trace t.result t.after) :
    (∃ service subsets pods replies, t.Collects s id
        (.ofEntry (t.before.held.store.seen s id subsets pods replies) service subsets) ∧
      Rest R s id t (.ofEntry (t.before.held.store.seen s id subsets pods replies) service subsets)
        (t.before.held.store.seen s id subsets pods replies)) ∨
    (∀ c, ¬ t.Collects s id c) ∧ (∃ e, t.result = .error e) ∧ Aside t.trace ∧
      t.after.held = t.before.held.entered id := by
  obtain ⟨v, v', before, tr₁, behind, hv, hsync, hafter, htrace, hbc, hbo, hac, hao⟩ := h
  have hinterest : v.held.interest.contains id = true := by
    rw [hv]
    exact Std.ExtTreeSet.contains_insert_self
  obtain ⟨o, v₁, trₒ, trᵣ, hfits, rfl, hobserved, haside, habout, hrest⟩ :=
    runs_sync hR hsync hinterest
  have hcalls : t.trace.calls = trₒ.calls ++ trᵣ.calls := by
    rw [htrace]
    simp [hbc, hac]
  rcases hrest with ⟨service, subsets, pods, replies, rfl, hv₁, v₂, hbring, hv'⟩ |
    ⟨ho, rfl, herror, hv'⟩
  · rw [hv] at hv₁ hbring
    refine .inl ⟨service, subsets, pods, replies, ⟨service, subsets, pods, replies, hfits, ?_, rfl⟩,
      ⟨v₁, v₂, trᵣ, hv₁, by rw [hafter, hv'], hbring, fun event hevent => ?_, fun k hk => ?_,
        fun k hk => ?_⟩⟩
    · rw [htrace]
      simp [hbo, hao, hobserved, observed_of_runs hR hbring]
    · rw [htrace]
      simp [hevent]
    · have hbefore : before.about k = [] := Trace.about_eq_nil_of_calls (by simp [hbc])
      have hbehind : behind.about k = [] := Trace.about_eq_nil_of_calls (by simp [hac])
      rw [htrace]
      simp [hbefore, hbehind, habout k hk]
    · rw [hcalls] at hk
      exact (List.mem_append.1 hk).symm.imp_right (haside k)
  · refine .inr ⟨?_, herror, ?_, ?_⟩
    · -- the trace shows something else than a complete observation
      rintro c ⟨service, subsets, pods, replies, hfits', hshown, -⟩
      have hsame : o.events s id = (Observation.complete service subsets pods replies).events s
          id := by
        rw [← hshown, htrace]
        simp [hbo, hao, hobserved]
      exact ho service subsets pods replies (Observation.eq_of_events_eq hfits hfits' hsame)
    · intro k hk
      rw [hcalls] at hk
      exact haside k (by simpa using hk)
    · rw [hafter, hv', hv]
      rfl

/-- A pass that is run fails to collect metrics, or collects them and has the effects of the
rest. -/
theorem course_of_within (hR : R.Sound)
    (h : Within R s id t.limiter { t.before.held with interest := t.before.held.interest.insert id }
      t.trace t.result t.after) : t.Course R s id := by
  rcases rest_of_within hR h with ⟨service, subsets, pods, replies, hcollects, hrest⟩ |
    ⟨hblind, herror, haside, hheld⟩
  · -- the effects are those of the rest: what surrounds it writes nothing
    obtain ⟨v, v', tr, hv, hv', hbring, hevents, habout, hcalls⟩ := hrest
    have heffects := effects_of_runs hR hbring
    rw [hv, hv'] at heffects
    exact .seen service subsets pods replies hcollects (heffects.widen hevents habout hcalls)
  · exact .blind hblind herror haside hheld

theorem calls_ne_nil_of_within (hR : R.Sound) {l : Limiter} {held : Held} {tr : Trace}
    {y : Except PassError Unit} {w' : World}
    (h : Within R s id l { held with interest := held.interest.insert id } tr y w') :
    tr.calls ≠ [] := by
  obtain ⟨v, v', before, tr₁, behind, hv, hsync, -, rfl, -⟩ := h
  have hinterest : v.held.interest.contains id = true := by
    rw [hv]
    exact Std.ExtTreeSet.contains_insert_self
  obtain ⟨o, v₁, trₒ, trᵣ, -, rfl, hobserved, -⟩ := runs_sync hR hsync hinterest
  obtain ⟨rest, hrest⟩ := o.events_eq_cons s id
  -- whatever else was seen, the service was asked for
  have hcall : ClusterCall.service id ∈ trₒ.calls := by
    refine Trace.mem_calls_of_mem_observed (c := .service id) (r := o.serviceReply) ?_
    rw [hobserved, hrest]
    exact List.mem_cons_self
  intro hnone
  simp only [Trace.calls_append, List.append_eq_nil_iff] at hnone
  rw [hnone.2.1.1] at hcall
  cases hcall

/-- What may become of a pass over a limiter with a name. -/
theorem Ran.course (hR : R.Sound) (hkey : keyOf t.limiter = .ok id) (ht : t.Ran R s) :
    t.Course R s id := by
  obtain ⟨occasion, l, w, tr, y, w'⟩ := t
  cases occasion with
  | changed =>
    rcases runs_reconcile hR hkey ht with ⟨-, -, hheld, hc, ho⟩ | ⟨-, -, hheld, hc, ho⟩ | h
    · exact .idle hheld hc ho
    · exact .idle hheld hc ho
    · exact course_of_within hR h
  | metrics =>
    rcases runs_refresh hR hkey ht with ⟨-, -, hheld, hc, ho⟩ | ⟨hi, h⟩
    · exact .idle hheld hc ho
    · rw [← insert_interest_of_contains hi] at h
      exact course_of_within hR h

/-- A pass that has collected metrics goes on to the rest. -/
theorem Ran.rest (hR : R.Sound) (hkey : keyOf t.limiter = .ok id) (ht : t.Ran R s) {c : Collected}
    (hc : t.Collects s id c) : ∃ new, Rest R s id t c new := by
  -- a pass that observes something was not passed over
  have hwithin : Within R s id t.limiter
      { t.before.held with interest := t.before.held.interest.insert id } t.trace t.result
          t.after := by
    obtain ⟨occasion, l, w, tr, y, w'⟩ := t
    cases occasion with
    | changed =>
      rcases runs_reconcile hR hkey ht with ⟨-, -, -, -, ho⟩ | ⟨-, -, -, -, ho⟩ | h
      · exact absurd ho hc.observed_ne_nil
      · exact absurd ho hc.observed_ne_nil
      · exact h
    | metrics =>
      rcases runs_refresh hR hkey ht with ⟨-, -, -, -, ho⟩ | ⟨hi, h⟩
      · exact absurd ho hc.observed_ne_nil
      · rw [← insert_interest_of_contains hi] at h
        exact h
  rcases rest_of_within hR hwithin with ⟨service, subsets, pods, replies, hc', hrest⟩ | ⟨hblind, -⟩
  · rw [hc.eq hc']
    exact ⟨_, hrest⟩
  · exact absurd hc (hblind c)

/-- A pass that succeeds and observes something has collected metrics. -/
theorem Ran.exists_collects (hR : R.Sound) (hkey : keyOf t.limiter = .ok id) (ht : t.Ran R s)
    (hok : t.result.isOk = true) (hobserved : t.trace.observed.isEmpty = false) :
    ∃ c, t.Collects s id c := by
  cases ht.course hR hkey with
  | idle _ _ observed =>
    rw [observed] at hobserved
    cases hobserved
  | blind _ result _ _ =>
    obtain ⟨e, he⟩ := result
    rw [he] at hok
    cases hok
  | seen service subsets pods replies collects _ => exact ⟨_, collects⟩

end Taken

/-- The last pass of a history, and the history before it. -/
theorem History.of_snoc {w₀ w : World} {ts : List Taken} {t : Taken}
    (h : History R s w₀ (ts ++ [t]) w) : History R s w₀ ts t.before ∧ t.Ran R s ∧ w = t.after := by
  generalize hall : ts ++ [t] = all at h
  cases h with
  | start => exact absurd (congrArg List.length hall) (by simp)
  | snoc prior ran =>
    obtain ⟨rfl, hlast⟩ := List.append_inj' hall rfl
    cases hlast
    exact ⟨prior, ran, rfl⟩

/-- Each pass of a history was taken in the way that a pass can be. -/
theorem History.ran {w₀ w : World} {ts : List Taken} (h : History R s w₀ ts w) :
    ∀ t ∈ ts, t.Ran R s := by
  induction h with
  | start => exact List.forall_mem_nil _
  | snoc _ ran ih => exact List.forall_mem_append.2 ⟨ih, List.forall_mem_singleton.2 ran⟩

/-- A further pass starts from where those before it have led. -/
theorem takeAll_concat (s : Settings) (w : World) (ps : List (Occasion × Limiter))
    (occasion : Occasion) (l : Limiter) :
    takeAll s w (ps ++ [(occasion, l)])
        = takeAll s w ps ++ [Taken.alone s (afterAll s w ps) occasion l] ∧
      afterAll s w (ps ++ [(occasion, l)])
        = (Taken.alone s (afterAll s w ps) occasion l).after := by
  induction ps generalizing w with
  | nil => exact ⟨rfl, rfl⟩
  | cons p ps ih =>
    obtain ⟨o, l'⟩ := p
    obtain ⟨htaken, hafter⟩ := ih (Taken.alone s w o l').after
    rw [List.cons_append, takeAll, takeAll, afterAll, afterAll, htaken, hafter]
    exact ⟨rfl, rfl⟩

/-- Passes over limiters of one key are passes over that key. -/
theorem keyOf_of_mem_takeAll {w : World} {ps : List (Occasion × Limiter)}
    (h : ∀ p ∈ ps, keyOf p.2 = .ok id) : ∀ t ∈ takeAll s w ps, keyOf t.limiter = .ok id := by
  induction ps generalizing w with
  | nil =>
    rw [takeAll]
    exact List.forall_mem_nil _
  | cons p ps ih =>
    obtain ⟨hp, hps⟩ := List.forall_mem_cons.1 h
    rw [takeAll]
    exact List.forall_mem_cons.2 ⟨hp, ih hps⟩

/-- Passes that are taken alone are a history, from a world of a kind that no step leaves. -/
theorem history_takeAll {P : World → Prop}
    (hstep : ∀ w a, P w → R w a (w.perform a).1 (w.perform a).2 ∧ P (w.perform a).2)
    (hnow : ∀ w t, P w → P { w with now := t }) {w₀ w : World} {ts : List Taken}
    (prior : History R s w₀ ts w) (hw : P w) (ps : List (Occasion × Limiter)) :
    History R s w₀ (ts ++ takeAll s w ps) (afterAll s w ps) := by
  induction ps generalizing w ts with
  | nil =>
    rw [takeAll, List.append_nil]
    exact prior
  | cons p ps ih =>
    -- the rest starts from the world that this pass leaves, where the assumption still holds
    obtain ⟨occasion, l⟩ := p
    obtain ⟨hrun, hafter⟩ := Program.runs_runAlone hstep hnow (passFor s occasion l).run hw
    have hnext : History R s w₀ (ts ++ [Taken.alone s w occasion l])
        (Taken.alone s w occasion l).after := .snoc prior hrun
    have hrest := ih hnext hafter
    rw [List.append_assoc] at hrest
    exact hrest

/-- Passes that are taken alone are a history. -/
theorem history_alone (s : Settings) (w : World) (ps : List (Occasion × Limiter)) :
    History World.Answers s w (takeAll s w ps) (afterAll s w ps) :=
  history_takeAll (P := fun _ => True) (fun w a _ => ⟨w.answers_perform a, trivial⟩)
    (fun _ _ _ => trivial) .start trivial ps

/-- If no call is made to fail as if its object did not exist, they are one of a truthful
cluster. -/
theorem history_alone_truly (s : Settings) {w : World} (hw : w.DeniesNothing)
    (ps : List (Occasion × Limiter)) :
    History World.AnswersTruly s w (takeAll s w ps) (afterAll s w ps) :=
  history_takeAll World.answersTruly_perform (fun _ _ h => h) .start hw ps

/-! ## A service with two subsets

The world that most of the examples start from. -/

/-- The service whose limiters the examples are about. -/
def reviews : ResourceId := { ns := "default", name := "reviews" }

/-- A limiter with a rule of its own for each of some subsets. -/
def reviewsLimiter (generation : Int64) (quotas : List (String × String)) : Limiter :=
  let descriptor (quota : String) : Descriptor :=
    { action := some { quota, fillInterval := { seconds := 1, nanos := 0 } }
      customKey := some "client"
      customValue := some "mobile" }
  { metadata :=
      { name := some reviews.name
        ns := some reviews.ns
        generation := some generation }
    spec := { sets := quotas.foldl (fun m q => m.insert q.1 [descriptor q.2]) ∅ } }

/-- A cluster with the service and two subsets of it, where some calls fail. -/
def reviewsWorld (faults : List Fault) : World :=
  { cluster := { services := (∅ : Std.ExtTreeMap ResourceId Service).insert reviews {} }
    faults
    declared := some ((∅ : Std.ExtTreeMap String (List Subset)).insert
      (reviews.serviceHost defaultClusterDomain) [{ name := "v1" }, { name := "v2" }])
    indexes := .empty defaultClusterDomain 64 64 }

/-- Settings without any metrics. -/
def noMetrics : Settings := { handlers := ∅ }

end MeshLimiter.Pass
