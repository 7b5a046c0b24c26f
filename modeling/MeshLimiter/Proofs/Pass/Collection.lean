import MeshLimiter.Proofs.Program.Answers
import MeshLimiter.Proofs.Program.Takes
import MeshLimiter.Proofs.Query.Gather
import MeshLimiter.Proofs.Store
/-!
# What collecting metrics does

A collection looks at the service, its subsets, its pods and its metrics. What it comes to depends
on that, and on the entry that it starts from, and on nothing else.

* **`Observation`**: what a collection may see, and `Observation.events` how a trace shows it;
* **`Observation.eq_of_events_eq`**: two collections whose traces show the same have seen the same;
* **`Collected.runs_collect`**: all runs of a collection;
* **`Entry.observe_observe`**: who sees the same again comes to the same entry again.
-/

namespace MeshLimiter

open Program (Runs runs_done runs_step)

/-! ## Answers to a collection

It looks at the cluster and at one entry, and changes that entry only. -/

/-- What a collection relies on: to look changes nothing that is held, an entry is read and brought
up to date as it is held, and there is a reply to each query. What else is replied does not
matter. -/
structure Answering.Heeds (R : Answering) : Prop where
  quiet : ∀ ⦃w : World⦄ ⦃a : Step⦄ ⦃r : a.Reply⦄ ⦃w' : World⦄, R w a r w' → a.isQuiet = true →
    w'.held = w.held
  read : ∀ ⦃w : World⦄ ⦃e : EntryId⦄ ⦃r : Entry⦄ ⦃w' : World⦄, R w (.readEntry e) r w' →
    r = w.held.store.get e
  update : ∀ ⦃w : World⦄ ⦃e : EntryId⦄ ⦃m : Material⦄ ⦃r : Nat⦄ ⦃w' : World⦄,
    R w (.updateEntry e m) r w' →
    r = (w.held.store.update e m).1 ∧ w'.held = { w.held with store := (w.held.store.update e m).2 }
  replies : ∀ ⦃w : World⦄ ⦃texts : List String⦄ ⦃r : List QueryReply⦄ ⦃w' : World⦄,
    R w (.receiveAnswers texts) r w' → r.length = texts.length

/-- Each query gets a reply. -/
theorem World.Answers.length_replies {w w' : World} {texts : List String} {r : List QueryReply}
    (h : w.Answers (.receiveAnswers texts) r w') : r.length = texts.length := by
  cases h with
  | performed held => exact List.length_map _

/-- An unreliable cluster heeds what a collection relies on. -/
theorem Answering.Sound.heeds {R : Answering} (hR : R.Sound) : R.Heeds where
  quiet _ _ _ _ h := (hR h).held_of_isQuiet
  read _ _ _ _ h := (hR h).readEntry
  update _ _ _ _ _ h := (hR h).updateEntry
  replies _ _ _ _ h := (hR h).length_replies

/-! ## Entries

What was seen comes into the entry, unless no query was answered. -/

namespace Entry

/-- An entry after its service has been seen once more. If no query is answered, it stays as it
is. -/
def observe (s : Settings) (id : ResourceId) (e : Entry) (subsets : List Subset) (pods : List Pod)
    (replies : List QueryReply) : Entry :=
  let groups := PodGroups.ofPods pods subsets
  let gathered := Collected.gather e.material (Collected.podCounts groups)
    ((Query.render id groups s.handlers s.maxSubsets).zip replies)
  if !gathered.2.isEmpty && gathered.2.all (· = .error) then e else e.update gathered.1

/-- An entry that has been seen once more holds the same, or its revision has grown. -/
theorem observe_cases (s : Settings) (id : ResourceId) (e : Entry) (subsets : List Subset)
    (pods : List Pod) (replies : List QueryReply) :
    e.observe s id subsets pods replies = e ∨
      e.revision < (e.observe s id subsets pods replies).revision := by
  unfold observe
  dsimp only
  split
  · exact .inl rfl
  · exact update_cases ..

/-- To see the same again changes nothing more. -/
theorem observe_observe (s : Settings) (id : ResourceId) (e : Entry) (subsets : List Subset)
    (pods : List Pod) (replies : List QueryReply) :
    (e.observe s id subsets pods replies).observe s id subsets pods replies
      = e.observe s id subsets pods replies := by
  generalize hg : Collected.gather e.material (Collected.podCounts (PodGroups.ofPods pods subsets))
    ((Query.render id (PodGroups.ofPods pods subsets) s.handlers s.maxSubsets).zip replies)
      = gathered
  by_cases hstale : (!gathered.2.isEmpty && gathered.2.all (· = .error)) = true
  · -- no query was answered, and none will be
    have he : e.observe s id subsets pods replies = e := by
      unfold observe
      dsimp only
      rw [hg, if_pos hstale]
    rw [he, he]
  · have he : e.observe s id subsets pods replies = e.update gathered.1 := by
      unfold observe
      dsimp only
      rw [hg, if_neg hstale]
    -- what was gathered is what the entry holds now, and from there it is gathered again
    have hagain : Collected.gather (e.update gathered.1).material
        (Collected.podCounts (PodGroups.ofPods pods subsets))
        ((Query.render id (PodGroups.ofPods pods subsets) s.handlers s.maxSubsets).zip replies)
          = gathered := by
      rw [material_update, ← hg]
      exact Collected.gather_gather ..
    rw [he]
    unfold observe
    dsimp only
    rw [hagain, if_neg hstale]
    exact update_of_material_eq (material_update ..)

end Entry

/-! ## Observations

A collection sees the service first. If there is one, it sees the subsets, the pods, and what the
queries are replied to. -/

/-- What a collection sees. -/
inductive Observation where
  | unanswered (error : ClusterError)
  | noService
  | podsUnanswered (service : Service) (subsets : List Subset) (error : ClusterError)
  | complete (service : Service) (subsets : List Subset) (pods : List Pod)
    (replies : List QueryReply)

namespace Observation

/-- Pods are not asked for if the service picks none. -/
def Fits : Observation → Prop
  | complete service _ pods _ => service.podSelector.isEmpty = true → pods = []
  | _ => True

/-- How a trace shows the pods of a service. -/
def podEvents (id : ResourceId) (selector : Labels) (pods : List Pod) : Trace :=
  if selector.isEmpty then [] else [⟨.call (.pods id.ns selector), .ok pods⟩]

/-- How a trace shows what was seen. -/
def events (s : Settings) (id : ResourceId) : Observation → Trace
  | unanswered e => [⟨.call (.service id), .error e⟩]
  | noService => [⟨.call (.service id), .ok none⟩]
  | podsUnanswered service subsets e =>
    [⟨.call (.service id), .ok (some service)⟩,
      ⟨.subsetsOf (id.serviceHost s.clusterDomain), subsets⟩,
      ⟨.call (.pods id.ns service.podSelector), .error e⟩]
  | complete service subsets pods replies =>
    ⟨.call (.service id), .ok (some service)⟩ ::
      ⟨.subsetsOf (id.serviceHost s.clusterDomain), subsets⟩ ::
      (podEvents id service.podSelector pods ++
        [⟨.receiveAnswers ((Query.render id (PodGroups.ofPods pods subsets) s.handlers
          s.maxSubsets).map (·.query)), replies⟩])

/-- What was replied when the service was asked for. -/
def serviceReply : Observation → Except ClusterError (Option Service)
  | unanswered e => .error e
  | noService => .ok none
  | podsUnanswered service _ _ => .ok (some service)
  | complete service _ _ _ => .ok (some service)

/-- Every collection begins with the service. -/
theorem events_eq_cons (s : Settings) (id : ResourceId) (o : Observation) :
    ∃ rest, o.events s id = ⟨.call (.service id), o.serviceReply⟩ :: rest := by
  cases o <;> exact ⟨_, rfl⟩

/-- Pods that could not be listed are no pods that could. -/
theorem pods_ne_more {id : ResourceId} {selector : Labels} {e : ClusterError} {pods : List Pod}
    {texts : List String} {replies : List QueryReply} :
    ([⟨.call (.pods id.ns selector), .error e⟩] : Trace) ≠
      podEvents id selector pods ++ [⟨.receiveAnswers texts, replies⟩] := by
  intro h
  unfold podEvents at h
  split at h
  · cases (Event.mk.inj (List.cons.inj h).1).1
  · have hpods : (Except.error e : Except ClusterError (List Pod)) = .ok pods :=
      Event.reply_eq (List.cons.inj h).1
    cases hpods

/-- There is a reply to each query. -/
def Answered (s : Settings) (id : ResourceId) : Observation → Prop
  | complete _ subsets pods replies =>
    replies.length
      = (Query.render id (PodGroups.ofPods pods subsets) s.handlers s.maxSubsets).length
  | _ => True

/-- What is gathered of the queries, for an entry that was there before. -/
def gathered (s : Settings) (id : ResourceId) (e : Entry) (subsets : List Subset) (pods : List Pod)
    (replies : List QueryReply) : Material × List QueryOutcome :=
  let groups := PodGroups.ofPods pods subsets
  Collected.gather e.material (Collected.podCounts groups)
    ((Query.render id groups s.handlers s.maxSubsets).zip replies)

/-- What is counted of a collection once its queries are gathered. -/
def outcome (e : Entry) (gathered : Material × List QueryOutcome) : CollectionOutcome :=
  if !gathered.2.isEmpty && gathered.2.all (· = .error) then .stale
  else if (e.update gathered.1).revision = e.revision then .unchanged
  else .updated

/-- What is counted of a collection, with the entry that was there before. Of one that fails nothing
is. -/
def counts (s : Settings) (id : ResourceId) (e : Entry) : Observation → List PassEvent
  | complete _ subsets pods replies =>
    let gathered := gathered s id e subsets pods replies
    gathered.2.map .query ++ [.collection (outcome e gathered)]
  | _ => []

/-- Who shows the same has seen the same. -/
theorem eq_of_events_eq {s : Settings} {id : ResourceId} {o o' : Observation} (ho : o.Fits)
    (ho' : o'.Fits) (h : o.events s id = o'.events s id) : o = o' := by
  have hservice : o.serviceReply = o'.serviceReply := by
    obtain ⟨rest, hrest⟩ := o.events_eq_cons s id
    obtain ⟨rest', hrest'⟩ := o'.events_eq_cons s id
    rw [hrest, hrest'] at h
    exact Event.reply_eq (List.cons.inj h).1
  cases o with
  | unanswered e =>
    cases o' <;> cases hservice
    rfl
  | noService =>
    cases o' <;> cases hservice
    rfl
  | podsUnanswered service subsets e =>
    cases o' with
    | podsUnanswered service' subsets' e' =>
      cases hservice
      obtain ⟨hsubsets, hpods⟩ := List.cons.inj (List.cons.inj h).2
      obtain rfl : subsets = subsets' := Event.reply_eq hsubsets
      have he : (Except.error e : Except ClusterError (List Pod)) = .error e' :=
        Event.reply_eq (List.cons.inj hpods).1
      cases he
      rfl
    | complete service' subsets' pods' replies' =>
      cases hservice
      exact absurd (List.cons.inj (List.cons.inj h).2).2 pods_ne_more
    | unanswered | noService => cases hservice
  | complete service subsets pods replies =>
    cases o' with
    | podsUnanswered service' subsets' e' =>
      cases hservice
      exact absurd (List.cons.inj (List.cons.inj h).2).2.symm pods_ne_more
    | complete service' subsets' pods' replies' =>
      cases hservice
      obtain ⟨hsubsets, hmore⟩ := List.cons.inj (List.cons.inj h).2
      obtain rfl : subsets = subsets' := Event.reply_eq hsubsets
      unfold podEvents at hmore
      split at hmore
      · -- pods are not in the trace; there were none either time
        next hselector =>
        obtain rfl := ho hselector
        obtain rfl := ho' hselector
        obtain rfl : replies = replies' := Event.reply_eq (List.cons.inj hmore).1
        rfl
      · obtain ⟨hpods, hreplies⟩ := List.cons.inj hmore
        have hpods : (Except.ok pods : Except ClusterError (List Pod)) = .ok pods' :=
          Event.reply_eq hpods
        cases hpods
        obtain rfl : replies = replies' := Event.reply_eq (List.cons.inj hreplies).1
        rfl
    | unanswered | noService => cases hservice

end Observation

namespace Collected

variable {R : Answering} {w w' : World} {tr : Trace}

/-- What is known once an entry is up to date. -/
def ofEntry (entry : Entry) (service : Service) (subsets : List Subset) : Collected :=
  { material := entry.material
    revision := entry.revision
    selector := service.podSelector
    subsets }

/-- Taking note of what became of the queries changes nothing. -/
theorem runs_forIn_count {ε : Type} (hR : R.Heeds) {outcomes : List QueryOutcome}
    {y : Except ε PUnit}
    (h : Runs R (forIn outcomes PUnit.unit (fun o _ => do
      Program.count (.query o)
      pure (.yield PUnit.unit)) : Attempt ε PUnit).run w tr y w') :
    y = .ok () ∧ w'.held = w.held ∧ tr.observed = [] ∧ tr.calls = [] ∧
      tr.counted = outcomes.map .query := by
  induction outcomes generalizing w tr with
  | nil =>
    obtain ⟨rfl, rfl, rfl⟩ := Attempt.runs_pure.1 h
    exact ⟨rfl, rfl, rfl, rfl, rfl⟩
  | cons o outcomes ih =>
    rw [List.forIn_cons] at h
    rcases Attempt.runs_bind.1 h with ⟨tr₁, x, v, tr₂, h₁, h₂, rfl⟩ | ⟨e, h₁, rfl⟩
    · -- one outcome is counted, and the loop goes on
      obtain ⟨u, rest, hcount, rfl, hyield⟩ := Attempt.runs_count_bind.1 h₁
      obtain ⟨rfl, hx, rfl⟩ := Attempt.runs_pure.1 hyield
      obtain rfl := Except.ok.inj hx
      obtain ⟨hy, hheld, hobserved, hcalls, hcounted⟩ := ih h₂
      exact ⟨hy, by rw [hheld, hR.quiet hcount rfl], hobserved, hcalls,
        congrArg (PassEvent.query o :: ·) hcounted⟩
    · obtain ⟨u, rest, hcount, rfl, hyield⟩ := Attempt.runs_count_bind.1 h₁
      obtain ⟨-, hx, -⟩ := Attempt.runs_pure.1 hyield
      cases hx

/-- Pods are asked for only if the service picks some, and then the call is what was observed. -/
theorem runs_findPods (hR : R.Heeds) {id : ResourceId} {selector : Labels}
    {y : Except CollectionError (List Pod)} (h : Runs R (findPods id selector).run w tr y w') :
    w'.held = w.held ∧ (∀ c ∈ tr.calls, c.filterPlace? = none ∧ c.writesMesh = false) ∧
    tr.counted = [] ∧
      ((∃ pods, y = .ok pods ∧ tr.observed = Observation.podEvents id selector pods ∧
          (selector.isEmpty = true → pods = [])) ∨
        ∃ e, y = .error (.cluster e) ∧ tr.observed
          = [⟨.call (.pods id.ns selector), .error e⟩]) := by
  unfold Observation.podEvents
  by_cases hempty : selector.isEmpty = true
  · -- a service that picks no pods has none, and none are asked for
    have hfind : findPods id selector = pure [] := if_pos hempty
    rw [hfind] at h
    obtain ⟨rfl, rfl, rfl⟩ := Attempt.runs_pure.1 h
    exact ⟨rfl, by simp, rfl, .inl ⟨[], rfl, by rw [if_pos hempty]; rfl, fun _ => rfl⟩⟩
  · have hfind : findPods id selector = Attempt.call .cluster (.pods id.ns selector) :=
      if_neg hempty
    rw [hfind] at h
    obtain ⟨r, hpods, rfl, rfl⟩ := Attempt.runs_call.1 h
    refine ⟨hR.quiet hpods rfl, Trace.forall_calls_cons ⟨rfl, rfl⟩ (by simp), rfl, ?_⟩
    cases r with
    | ok pods =>
      exact .inl ⟨pods, rfl, by rw [if_neg hempty]; rfl, fun h => absurd h hempty⟩
    | error e => exact .inr ⟨e, rfl, rfl⟩

/-- The queries are asked all at once, and each gets a reply. -/
theorem runs_askQueries (hR : R.Heeds) {queries : List Query} {replies : List QueryReply}
    (h : Runs R (Collected.ask queries) w tr replies w') :
    w'.held = w.held ∧ tr.calls = [] ∧
      tr.observed = [⟨.receiveAnswers (queries.map (·.query)), replies⟩] ∧ tr.counted = [] ∧
      replies.length = queries.length := by
  unfold Collected.ask at h
  obtain ⟨tr₁, time, v, tr₂, h₁, h₂, rfl⟩ := Program.runs_bind.1 h
  obtain ⟨hsend, rfl⟩ := runs_step.1 h₁
  obtain ⟨tr₃, u, v₁, tr₄, h₃, h₄, rfl⟩ := Program.runs_bind.1 h₂
  obtain ⟨hreceive, rfl⟩ := runs_step.1 h₄
  cases h₃ with
  | wait waits held rest =>
    obtain ⟨rfl, rfl, rfl⟩ := runs_done.1 rest
    refine ⟨?_, rfl, rfl, rfl, (hR.replies hreceive).trans (List.length_map _)⟩
    rw [hR.quiet hreceive rfl, held, hR.quiet hsend rfl]

/-- What a collection comes to that has seen `o`: if it has seen all it was to see, the entry is
brought up to date; else nothing is changed. -/
def Follows {ε : Type} (s : Settings) (id : ResourceId) (e : EntryId) (o : Observation) (w : World)
    (y : Except ε Collected) (w' : World) : Prop :=
  (∃ service subsets pods replies, o = .complete service subsets pods replies ∧
      y = .ok (ofEntry ((w.held.store.get e).observe s id subsets pods replies) service subsets) ∧
      w'.held = { w.held with
        store := w.held.store.put e ((w.held.store.get e).observe s id subsets pods replies) }) ∨
    (∀ service subsets pods replies, o ≠ .complete service subsets pods replies) ∧
      (∃ error, y = .error error) ∧ w'.held = w.held

/-- The end of a collection: what was gathered is brought into the entry. -/
def bringIn (e : EntryId) (previous : Entry) (gathered : Material × List QueryOutcome)
    (service : Service) (subsets : List Subset) : Attempt CollectionError Collected := do
  for o in gathered.2 do Program.count (.query o)
  if !gathered.2.isEmpty && gathered.2.all (· = .error) then
    Program.count (.collection .stale)
    return ofEntry previous service subsets
  else
    let revision : Nat ← (Program.step (.updateEntry e gathered.1) :)
    Program.count (.collection (if revision = previous.revision then .unchanged else .updated))
    return {
      material := gathered.1
      revision
      selector := service.podSelector
      subsets
    }

/-- The part of a collection that begins once the pods of the service are found. -/
def collectFrom (s : Settings) (id : ResourceId) (e : EntryId) (service : Service)
    (subsets : List Subset) (pods : List Pod) : Attempt CollectionError Collected := do
  let groups := PodGroups.ofPods pods subsets
  let queries := Query.render id groups s.handlers s.maxSubsets
  let replies ← (ask queries :)
  let previous : Entry ← (Program.step (.readEntry e) :)
  bringIn e previous (gather previous.material (podCounts groups) (queries.zip replies))
    service subsets

/-- A collection, cut where the service, its subsets and its pods are found. -/
theorem collect_eq (s : Settings) (id : ResourceId) (e : EntryId) :
    collect s id e = (do
      let found : Option Service ← Attempt.call .cluster (.service id)
      let some service := found | throw (.serviceNotFound id)
      let subsets : List Subset ← (Program.step (.subsetsOf (id.serviceHost s.clusterDomain)) :)
      let pods ← findPods id service.podSelector
      collectFrom s id e service subsets pods) := rfl

/-- What was gathered is counted, and brought into the entry unless no query was answered. -/
theorem runs_bringIn (hR : R.Heeds) {e : EntryId} {previous : Entry}
    {gathered : Material × List QueryOutcome} {service : Service} {subsets : List Subset}
    {y : Except CollectionError Collected} (hprevious : previous = w.held.store.get e)
    (h : Runs R (bringIn e previous gathered service subsets).run w tr y w') :
    let entry := if !gathered.2.isEmpty && gathered.2.all (· = .error) then previous
      else previous.update gathered.1
    tr.calls = [] ∧ tr.observed = [] ∧ y = .ok (ofEntry entry service subsets) ∧
      w'.held = { w.held with store := w.held.store.put e entry } ∧
      tr.counted = gathered.2.map .query ++
        [.collection (Observation.outcome previous gathered)] := by
  subst hprevious
  unfold bringIn at h
  rcases Attempt.runs_bind.1 h with ⟨tr₁, u, v, tr₂, hloop, hrun, rfl⟩ | ⟨error, hloop, rfl⟩
  · obtain ⟨-, hv, hobserved, hcalls, hcounted⟩ := runs_forIn_count hR hloop
    dsimp only
    rw [Trace.calls_append, Trace.observed_append, Trace.counted_append, hcalls,
      hobserved, hcounted, Observation.outcome]
    split at hrun
    · -- no query was answered: the entry stays
      next hstale =>
      rw [if_pos hstale, if_pos hstale]
      obtain ⟨v₁, rest, hcount, rfl, hpure⟩ := Attempt.runs_count_bind.1 hrun
      obtain ⟨rfl, rfl, rfl⟩ := Attempt.runs_pure.1 hpure
      refine ⟨rfl, rfl, rfl, ?_, rfl⟩
      rw [MaterialStore.put_get, hR.quiet hcount rfl, hv]
    · -- the entry takes what was gathered, and says which revision it has now
      next hstale =>
      rw [if_neg hstale, if_neg hstale]
      obtain ⟨revision, v₁, rest, hupdate, rfl, hcounts⟩ := Attempt.runs_step_bind.1 hrun
      obtain ⟨v₂, rest₁, hcount, rfl, hpure⟩ := Attempt.runs_count_bind.1 hcounts
      obtain ⟨rfl, rfl, rfl⟩ := Attempt.runs_pure.1 hpure
      obtain ⟨hrevision, hv₁⟩ := hR.update hupdate
      rw [hv] at hrevision hv₁
      refine ⟨rfl, rfl, ?_, ?_, ?_⟩
      · unfold ofEntry
        rw [Entry.material_update, hrevision]
        rfl
      · rw [hR.quiet hcount rfl, hv₁]
        rfl
      · rw [hrevision]
        rfl
  · obtain ⟨he, -⟩ := runs_forIn_count hR hloop
    cases he

/-- A run of a collection from where the pods are found: it succeeds, with the entry brought up to
date by what was replied. -/
theorem runs_collectFrom (hR : R.Heeds) {s : Settings} {id : ResourceId} {e : EntryId}
    {service : Service} {subsets : List Subset} {pods : List Pod}
    {y : Except CollectionError Collected}
    (h : Runs R (collectFrom s id e service subsets pods).run w tr y w') :
    ∃ replies : List QueryReply, tr.calls = [] ∧
      tr.observed = [⟨.receiveAnswers ((Query.render id (PodGroups.ofPods pods subsets) s.handlers
        s.maxSubsets).map (·.query)), replies⟩] ∧
      y = .ok (ofEntry ((w.held.store.get e).observe s id subsets pods replies) service subsets) ∧
      w'.held = { w.held with
        store := w.held.store.put e ((w.held.store.get e).observe s id subsets pods replies) } ∧
      (Observation.complete service subsets pods replies).Answered s id ∧
      tr.counted = (Observation.complete service subsets pods replies).counts s id
        (w.held.store.get e) := by
  unfold collectFrom at h
  obtain ⟨tr₁, replies, v, rest, hask, hrun, rfl⟩ := Attempt.runs_lift_bind.1 h
  obtain ⟨hv, hcalls, hobserved, hcounted, hlength⟩ := runs_askQueries hR hask
  -- the entry is read only after the queries have been answered
  obtain ⟨previous, v₁, rest₁, hread, rfl, hend⟩ := Attempt.runs_step_bind.1 hrun
  have hprevious : previous = w.held.store.get e := by rw [hR.read hread, hv]
  have hv₁ : v₁.held = w.held := by rw [hR.quiet hread rfl, hv]
  obtain ⟨hcallsEnd, hobservedEnd, hy, hw', hcountedEnd⟩ :=
    runs_bringIn hR (by rw [hprevious, hv₁]) hend
  rw [hv₁] at hw'
  subst hprevious
  refine ⟨replies, ?_, ?_, hy, hw', hlength, ?_⟩
  · rw [Trace.calls_append, hcalls]
    exact hcallsEnd
  · rw [Trace.observed_append, hobserved, Trace.observed_cons_of_not rfl, hobservedEnd]
    rfl
  · rw [Trace.counted_append, hcounted]
    exact hcountedEnd

/-- A collection that has seen `o`. -/
structure Saw (s : Settings) (id : ResourceId) (e : EntryId) (o : Observation) (w : World)
    (tr : Trace) (y : Except CollectionError Collected) (w' : World) : Prop where
  fits : o.Fits
  answered : o.Answered s id
  observed : tr.observed = o.events s id
  calls : ∀ c ∈ tr.calls, c.filterPlace? = none ∧ c.writesMesh = false
  counted : tr.counted = o.counts s id (w.held.store.get e)
  follows : Follows s id e o w y w'

/-- A collection that has seen nothing to bring the entry up to date by. -/
theorem saw_of_failed {s : Settings} {id : ResourceId} {e : EntryId} {o : Observation}
    {y : Except CollectionError Collected}
    (ho : ∀ service subsets pods replies, o ≠ .complete service subsets pods replies)
    (hobserved : tr.observed = o.events s id)
    (hcalls : ∀ c ∈ tr.calls, c.filterPlace? = none ∧ c.writesMesh = false)
    (hcounted : tr.counted = [])
    (hy : ∃ error, y = .error error) (hw' : w'.held = w.held) : Saw s id e o w tr y w' := by
  obtain ⟨hfits, hanswered, hnone⟩ : o.Fits ∧ o.Answered s id ∧
    o.counts s id (w.held.store.get e) = [] := by
    cases o with
    | complete service subsets pods replies => exact absurd rfl (ho service subsets pods replies)
    | _ => exact ⟨trivial, trivial, rfl⟩
  exact ⟨hfits, hanswered, hobserved, hcalls, hcounted.trans hnone.symm, .inr ⟨ho, hy, hw'⟩⟩

/-- All runs of a collection. -/
theorem saw_of_runs (hR : R.Heeds) {s : Settings} {id : ResourceId} {e : EntryId}
    {y : Except CollectionError Collected} (h : Runs R (collect s id e).run w tr y w') :
    ∃ o, Saw s id e o w tr y w' := by
  rw [collect_eq] at h
  obtain ⟨r, v, rest, hservice, rfl, ⟨found, rfl, hrun⟩ | ⟨error, rfl, rfl, rfl, rfl⟩⟩ :=
    Attempt.runs_call_bind.1 h
  · have hv : v.held = w.held := hR.quiet hservice rfl
    cases found with
    | none =>
      obtain ⟨rfl, rfl, rfl⟩ := Attempt.runs_throw.1 hrun
      exact ⟨.noService, saw_of_failed (fun _ _ _ _ => nofun) rfl
        (Trace.forall_calls_cons ⟨rfl, rfl⟩ (by simp)) rfl ⟨_, rfl⟩ hv⟩
    | some service =>
      obtain ⟨subsets, v₁, rest₁, hsubsets, rfl, hrun₁⟩ := Attempt.runs_step_bind.1 hrun
      have hv₁ : v₁.held = w.held := by rw [hR.quiet hsubsets rfl, hv]
      rcases Attempt.runs_bind.1 hrun₁ with
        ⟨tr₁, pods, v₂, rest₂, hfind, hrun₂, rfl⟩ | ⟨error, hfind, rfl⟩
      · -- the pods are found: all that was to be seen is seen
        obtain ⟨hv₂, hcalls, hcounted, ⟨pods', hpods, hobserved, hempty⟩ | ⟨e', he', -⟩⟩ :=
          runs_findPods hR hfind
        · obtain rfl := Except.ok.inj hpods
          obtain ⟨replies, hcallsEnd, hobservedEnd, hy, hw', hanswered, hcountedEnd⟩ :=
            runs_collectFrom hR hrun₂
          rw [hv₂, hv₁] at hy hw' hcountedEnd
          refine ⟨.complete service subsets pods replies, hempty, hanswered, ?_, ?_, ?_,
            .inl ⟨service, subsets, pods, replies, rfl, hy, hw'⟩⟩
          · rw [Trace.observed_cons_of_isObservation rfl, Trace.observed_cons_of_isObservation rfl,
              Trace.observed_append, hobserved, hobservedEnd]
            rfl
          · refine Trace.forall_calls_cons ⟨rfl, rfl⟩ ?_
            have hrest : Trace.calls (⟨.subsetsOf (id.serviceHost s.clusterDomain), subsets⟩ ::
                (tr₁ ++ rest₂)) = tr₁.calls := by
              show Trace.calls (tr₁ ++ rest₂) = tr₁.calls
              rw [Trace.calls_append, hcallsEnd, List.append_nil]
            rw [hrest]
            exact hcalls
          · show Trace.counted (tr₁ ++ rest₂) = _
            rw [Trace.counted_append, hcounted, hcountedEnd]
            rfl
        · cases he'
      · -- the pods cannot be listed
        obtain ⟨hv₂, hcalls, hcounted, ⟨pods, hpods, -, -⟩ | ⟨e', he', hobserved⟩⟩ :=
          runs_findPods hR hfind
        · cases hpods
        · refine ⟨.podsUnanswered service subsets e', saw_of_failed (fun _ _ _ _ => nofun) ?_
            (Trace.forall_calls_cons ⟨rfl, rfl⟩ hcalls) hcounted ⟨_, rfl⟩ (by rw [hv₂, hv₁])⟩
          rw [Trace.observed_cons_of_isObservation rfl,
            Trace.observed_cons_of_isObservation rfl, hobserved]
          rfl
  · exact ⟨.unanswered error, saw_of_failed (fun _ _ _ _ => nofun) rfl
      (Trace.forall_calls_cons ⟨rfl, rfl⟩ (by simp)) rfl ⟨_, rfl⟩ (hR.quiet hservice rfl)⟩

/-- A collection has seen something, and what it comes to follows from that. -/
theorem runs_collect (hR : R.Sound) {s : Settings} {id : ResourceId} {e : EntryId}
    {y : Except CollectionError Collected} (h : Runs R (collect s id e).run w tr y w') :
    ∃ o : Observation, o.Fits ∧ tr.observed = o.events s id ∧
      (∀ c ∈ tr.calls, c.filterPlace? = none ∧ c.writesMesh = false) ∧ Follows s id e o w y w' := by
  obtain ⟨o, ho⟩ := saw_of_runs hR.heeds h
  exact ⟨o, ho.fits, ho.observed, ho.calls, ho.follows⟩

/-- A run of a collection of which note is taken, with its error as one of the pass. -/
theorem runs_refresh (hR : R.Sound) {s : Settings} {id : ResourceId} {e : EntryId}
    {y : Except PassError Collected}
    (h : Runs R (ExceptT.adapt PassError.collection (refresh s id e)).run w tr y w') :
    ∃ o : Observation, o.Fits ∧ tr.observed = o.events s id ∧
      (∀ c ∈ tr.calls, c.filterPlace? = none ∧ c.writesMesh = false) ∧ Follows s id e o w y w' := by
  obtain ⟨x, hrefresh, rfl⟩ := Attempt.runs_adapt.1 h
  obtain ⟨tr₁, v, counts, hcollect, rfl, hcounts⟩ := Attempt.Runs.of_noting hrefresh
  -- the note in the end is only a count
  have hquiet : w'.held = v.held ∧ counts.observed = [] ∧ counts.calls = [] := by
    rcases hcounts with ⟨rfl, rfl⟩ | ⟨event, hcount, rfl⟩
    · exact ⟨rfl, rfl, rfl⟩
    · exact ⟨(hR hcount).held_of_isQuiet rfl, rfl, rfl⟩
  obtain ⟨o, hfits, hobserved, hcalls, hfollows⟩ := runs_collect hR hcollect
  refine ⟨o, hfits, ?_, ?_, ?_⟩
  · rw [Trace.observed_append, hobserved, hquiet.2.1, List.append_nil]
  · rw [Trace.calls_append, hquiet.2.2, List.append_nil]
    exact hcalls
  · rcases hfollows with ⟨service, subsets, pods, replies, ho, rfl, hv⟩ | ⟨ho, ⟨error, rfl⟩, hv⟩
    · exact .inl ⟨service, subsets, pods, replies, ho, rfl, by rw [hquiet.1, hv]⟩
    · exact .inr ⟨ho, ⟨_, rfl⟩, by rw [hquiet.1, hv]⟩

/-! ## The commands of a collection

None of them is a write. -/

/-- A look at the service, its pods and its metrics, or at one entry, or the update of that. -/
def Asks (e : EntryId) : Command → Prop
  | .step (.call (.service _)) | .step (.call (.pods _ _)) => True
  | .step (.subsetsOf _) | .step (.sendQueries _) | .step (.receiveAnswers _) => True
  | .sleepUntil _ | .step (.count _) => True
  | .step (.readEntry e') | .step (.updateEntry e' _) => e' = e
  | _ => False

/-- The calls among these are about the service. -/
theorem concern_of_asks {e : EntryId} {c : ClusterCall} (h : Asks e (.step (.call c))) :
    c.concern = .service := by
  cases c with
  | service | pods => rfl
  | _ => cases h

/-- To ask the queries is one command. -/
theorem takes_ask {e : EntryId} (queries : List Query) : (Collected.ask queries).Takes (Asks e) :=
  ⟨trivial, fun _ => ⟨trivial, fun _ => ⟨trivial, fun _ => trivial⟩⟩⟩

/-- To bring in what was gathered takes counts and one update. -/
theorem takes_bringIn (e : EntryId) (previous : Entry) (gathered : Material × List QueryOutcome)
    (service : Service) (subsets : List Subset) :
    (bringIn e previous gathered service subsets).run.Takes (Asks e) := by
  refine Attempt.takes_bind (Attempt.takes_forIn fun o _ => ?_) fun _ => ?_
  · exact Attempt.takes_step_bind trivial fun _ => trivial
  · split
    · exact Attempt.takes_step_bind trivial fun _ => trivial
    · refine Attempt.takes_step_bind rfl fun _ => ?_
      exact Attempt.takes_step_bind trivial fun _ => trivial

/-- A collection looks at the service, its pods and its metrics, and touches no entry but its
own. -/
theorem takes_refresh (s : Settings) (id : ResourceId) (e : EntryId) :
    (Collected.refresh s id e).run.Takes (Asks e) := by
  refine Attempt.takes_noting ?_ fun _ => trivial
  rw [collect_eq]
  refine Attempt.takes_bind (Attempt.takes_call trivial) fun found => ?_
  cases found with
  | none => trivial
  | some service =>
    refine Attempt.takes_step_bind trivial fun subsets => ?_
    refine Attempt.takes_bind ?_ fun pods => ?_
    · -- whether there is a call for the pods depends on what the service picks
      by_cases hempty : service.podSelector.isEmpty = true
      · have hfind : findPods id service.podSelector = pure [] := if_pos hempty
        rw [hfind]
        trivial
      · have hfind : findPods id service.podSelector
            = Attempt.call .cluster (.pods id.ns service.podSelector) := if_neg hempty
        rw [hfind]
        exact Attempt.takes_call trivial
    · refine Attempt.takes_bind (Attempt.takes_lift (takes_ask _)) fun replies => ?_
      exact Attempt.takes_step_bind rfl fun previous =>
        takes_bringIn ..

end Collected

end MeshLimiter
