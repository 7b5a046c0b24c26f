import MeshLimiter.Proofs.Pass.History
import MeshLimiter.Proofs.Query.Keeping
/-!
# Collections in which queries fail

* **`Collected.material_of_runs`**: a collection with a query that is answered comes to what it
  gathers;
* **`Collected.collect_consists_iff`**: when that consists of the entries that belong to it.

A failed group with the name of another metric before a dot keeps entries of that metric, though it
was answered: see **`Collected.exists_sibling_disturbed`**.
-/

namespace MeshLimiter

open Program (Runs)

namespace Collected

variable {previous m : Material} {q : Query} {answers : List (Query × QueryReply)} {s : Settings}
  {id : ResourceId} {subsets subsets' : List Subset} {service service' : Service} {pods : List Pod}
  {replies : List QueryReply} {tr : Trace}

/-- Where a query is answered, not all outcomes are errors. -/
theorem not_all_error {sample : Sample} (h : (q, .ok sample) ∈ answers) :
    ((gather previous m answers).2.all (· = .error)) = false := by
  induction answers generalizing m with
  | nil => cases h
  | cons answer answers ih =>
    obtain ⟨q', r⟩ := answer
    rw [gather_cons, List.all_cons]
    rcases List.mem_cons.1 h with heq | h
    · obtain ⟨rfl, rfl⟩ := Prod.mk.inj heq
      have hfirst : (takeIn previous m q (.ok sample)).2 ≠ .error := by
        rw [takeIn_ok_eq]
        split <;> nofun
      rw [decide_eq_false hfirst, Bool.false_and]
    · rw [ih h, Bool.and_false]

/-- Where a query is answered, an entry that is seen again takes what was gathered. -/
theorem material_observe {e : Entry} {sample : Sample} (h : (q, .ok sample) ∈
      (Query.render id (PodGroups.ofPods pods subsets) s.handlers s.maxSubsets).zip replies) :
    (e.observe s id subsets pods replies).material =
      (gather e.material (podCounts (PodGroups.ofPods pods subsets))
        ((Query.render id (PodGroups.ofPods pods subsets) s.handlers s.maxSubsets).zip
          replies)).1 := by
  unfold Entry.observe
  dsimp only
  rw [not_all_error h, Bool.and_false, if_neg nofun]
  exact Entry.material_update ..

/-- A collection with a query that is answered comes to what it gathers. -/
theorem material_of_runs {R : Answering} (hR : R.Sound) {e : EntryId} {w w' : World} {c : Collected}
    (h : Runs R (collect s id e).run w tr (.ok c) w') :
    ∃ service pods replies, (Observation.complete service c.subsets pods replies).Fits ∧
      tr.observed = (Observation.complete service c.subsets pods replies).events s id ∧
      let groups := PodGroups.ofPods pods c.subsets
      let answers := (Query.render id groups s.handlers s.maxSubsets).zip replies
      ∀ q sample, (q, .ok sample) ∈ answers →
        c.material = (gather (w.held.store.get e).material (podCounts groups) answers).1 := by
  obtain ⟨o, hfits, hobserved, -, ⟨service, subsets, pods, replies, rfl, hc, -⟩ |
    ⟨-, ⟨e, hc⟩, -⟩⟩ :=
    runs_collect hR h
  · obtain rfl := Except.ok.inj hc
    exact ⟨service, pods, replies, hfits, hobserved, fun q sample hmem => material_observe hmem⟩
  · cases hc

/-- **What a collection comes to.** If a query is answered, the material that is collected consists
of the entries that belong to it exactly if no two of these stand under one key, and whatever a
failed query keeps of the entry's material is among them or written over by a later sample. -/
theorem collect_consists_iff {R : Answering} (hR : R.Sound) {s : Settings} {id : ResourceId}
    {e : EntryId}
    {w w' : World} {tr : Trace} {c : Collected} (h : Runs R (collect s id e).run w tr (.ok c) w') :
    ∃ service pods replies, (Observation.complete service c.subsets pods replies).Fits ∧
      tr.observed = (Observation.complete service c.subsets pods replies).events s id ∧
      let previous := (w.held.store.get e).material
      let groups := PodGroups.ofPods pods c.subsets
      let answers := (Query.render id groups s.handlers s.maxSubsets).zip replies
      (∃ q sample, (q, .ok sample) ∈ answers) →
        (Consists previous groups answers c.material ↔
          Unambiguous previous groups answers ∧ KeepsItsOwn previous groups answers) := by
  obtain ⟨service, pods, replies, hfits, hobserved, hmaterial⟩ := material_of_runs hR h
  refine ⟨service, pods, replies, hfits, hobserved, ?_⟩
  rintro previous groups answers ⟨q, sample, hmem⟩
  rw [hmaterial q sample hmem]
  exact consists_iff previous groups answers

/-! ## Two metrics, of which one fails

A single value that is answered beside a group that is not keeps what belongs to the group. If both
are groups, and the name of one begins with that of the other and a dot, it does not. -/

/-- What of a reply does not depend on its values: the label sets of a sample, if there is one. -/
def shape : QueryReply → Option (List Labels)
  | .ok sample => some (sample.points.map Prod.fst)
  | .error _ => none

/-- The shapes of the replies in an event. -/
def shapes : Event → List (Option (List Labels))
  | ⟨.receiveAnswers _, (replies : List QueryReply)⟩ => replies.map shape
  | _ => []

/-- What was seen of a service can be read off the events, but for the values of its metrics. -/
theorem eq_of_glance
    (h : tr.observed = (Observation.complete service subsets pods replies).events s id)
    (hseen : Trace.agree (tr.observed.take 2)
      [⟨.call (.service id), .ok (some service')⟩,
        ⟨.subsetsOf (id.serviceHost s.clusterDomain), subsets'⟩] = true) :
    service = service' ∧ subsets = subsets' ∧ tr.observed.flatMap shapes = replies.map shape := by
  -- the first two events are the service and the subsets, as they were seen
  have htwo := Trace.eq_of_agree hseen
  rw [h] at htwo ⊢
  obtain ⟨hservice, hrest⟩ := List.cons.inj htwo
  have hservice : (Except.ok (some service) : Except ClusterError (Option Service))
      = .ok (some service') :=
    Event.reply_eq hservice
  obtain rfl : subsets = subsets' := Event.reply_eq (List.cons.inj hrest).1
  -- looks at pods are not replied to with samples
  have hpods : (Observation.podEvents id service.podSelector pods).flatMap shapes = [] := by
    unfold Observation.podEvents
    split <;> rfl
  refine ⟨Option.some.inj (Except.ok.inj hservice), rfl, ?_⟩
  rw [Observation.events, List.flatMap_cons, List.flatMap_cons, List.flatMap_append, hpods]
  exact List.append_nil _

/-- The service of the samples, with an entry that holds a material, and a backend. -/
def backedWorld (held : Material) (answers : List (String × QueryReply)) : World :=
  { Pass.reviewsWorld [] with
    backend := { answers := answers.foldl (fun m a => m.insert a.1 a.2) ∅ }
    memory :=
      { store :=
          { entries := [{ material := held, revision := 1 }]
            current := (∅ : Std.ExtTreeMap ResourceId EntryId).insert Pass.reviews ⟨0⟩ } } }

/-- A reply with label sets is a sample. -/
theorem ok_of_shape {r : QueryReply} {labels : List Labels} (h : shape r = some labels) :
    ∃ sample, r = .ok sample ∧ sample.points.map Prod.fst = labels := by
  cases r with
  | ok sample => exact ⟨sample, rfl, Option.some.inj h⟩
  | error e => cases h

/-- A reply without is an error. -/
theorem error_of_shape {r : QueryReply} (h : shape r = none) : ∃ e, r = .error e := by
  cases r with
  | ok sample => cases h
  | error e => exact ⟨e, rfl⟩

/-- What is seen of the service of the samples, which has two subsets and no pods. -/
def glance : Trace :=
  [⟨.call (.service Pass.reviews), .ok (some {})⟩,
    ⟨.subsetsOf (Pass.reviews.serviceHost defaultClusterDomain),
    [{ name := "v1" }, { name := "v2" }]⟩]

/-- Settings with a group `requests` and one more metric. -/
def requestsBeside (metric : String) (kind : QueryKind) : Settings :=
  { handlers := (∅ : Handlers).insert "requests" { query := "requests", kind := .group }
      |>.insert metric { query := metric, kind } }

/-- Two queries of the service of the samples, and the replies to them. -/
theorem answers_of_glance {metric : String} {kind : QueryKind} {q₁ q₂ : Query}
    {shape₁ shape₂ : Option (List Labels)}
    (hfits : (Observation.complete service subsets pods replies).Fits)
    (hobserved : tr.observed = (Observation.complete service subsets pods replies).events
      (requestsBeside metric kind) Pass.reviews)
    (hglance : Trace.agree (tr.observed.take 2) glance = true)
    (hshapes : tr.observed.flatMap shapes = [shape₁, shape₂])
    (hrender : Query.render Pass.reviews ∅ (requestsBeside metric kind).handlers
      (requestsBeside metric kind).maxSubsets = [q₁, q₂]) :
    PodGroups.ofPods pods subsets = ∅ ∧ ∃ r₁ r₂, shape r₁ = shape₁ ∧ shape r₂ = shape₂ ∧
      (Query.render Pass.reviews (PodGroups.ofPods pods subsets)
        (requestsBeside metric kind).handlers
        (requestsBeside metric kind).maxSubsets).zip replies = [(q₁, r₁), (q₂, r₂)] := by
  obtain ⟨rfl, -, hreplies⟩ := eq_of_glance hobserved hglance
  -- no selector, so no pods, and with no pods there are no groups
  obtain rfl : pods = [] := hfits rfl
  have hgroups : PodGroups.ofPods [] subsets = ∅ := rfl
  rw [hshapes] at hreplies
  obtain ⟨r₁, rest, rfl, hr₁, hrest⟩ := List.map_eq_cons_iff.1 hreplies.symm
  obtain ⟨r₂, rest, rfl, hr₂, hnil⟩ := List.map_eq_cons_iff.1 hrest
  obtain rfl := List.map_eq_nil_iff.1 hnil
  refine ⟨hgroups, r₁, r₂, hr₁, hr₂, ?_⟩
  rw [hgroups, hrender]
  rfl

/-- The query for a metric that is asked for by its name. -/
def queryNamed (metric : String) (kind : QueryKind) : Query :=
  { name := metric, query := metric, kind }

/-- A value of the group `requests`, and the group itself. -/
def heldForRequests : Material :=
  ({} : Material).insert (Sample.memberKey "requests" ((∅ : Labels).insert "source" "a")) "1"
    |>.insertGroup "requests" "1"

/-- Whatever is held belongs to the group that fails. -/
theorem stores_of_heldForRequests {key v : String} {group : Bool}
    (h : heldForRequests.Has key v group) : (queryNamed "requests" .group).Stores key := by
  unfold heldForRequests at h
  rw [Material.Has, Material.slot_insertGroup, Material.slot_insert] at h
  split at h
  · next hkey => exact .inl hkey.symm
  · split at h
    · next hkey => exact .inr ⟨rfl, (∅ : Labels).insert "source" "a", hkey.symm⟩
    · exact absurd h Material.not_has_empty

/-- The value that is answered was not held before. -/
theorem not_has_latency {v : String} {group : Bool} : ¬ heldForRequests.Has "latency" v group := by
  intro h
  have hnone : heldForRequests.values["latency"]? = none := by decide +kernel
  have hsome := h.value
  rw [hnone] at hsome
  cases hsome

/-- A single value that is answered, and a group that is not. -/
def oneFailed (sample : Sample) (e : QueryError) : List (Query × QueryReply) :=
  [(queryNamed "latency" .value, .ok sample), (queryNamed "requests" .group, .error e)]

theorem unambiguous_oneFailed (sample : Sample) (e : QueryError) :
    Unambiguous heldForRequests ∅ (oneFailed sample e) := by
  -- an entry is one of the sample, or it is held for the group
  have hcases : ∀ key v group, Belongs heldForRequests ∅ (oneFailed sample e) key v group →
      (key = "latency" ∧ (Sample.entries (queryNamed "latency" .value) sample).Has key v group) ∨
        heldForRequests.Has key v group := by
    intro key v group h
    cases h with
    | count has => exact absurd has Material.not_has_empty
    | sampled q s mem has =>
      rcases List.mem_cons.1 mem with heq | mem
      · cases heq
        rcases Sample.key_of_has_entries has with hkey | ⟨hkind, -⟩
        · exact .inl ⟨hkey, has⟩
        · cases hkind
      · cases List.mem_singleton.1 mem
    | kept q e mem stores has => exact .inr has
  intro key v group v' group' h h'
  rcases hcases _ _ _ h with ⟨rfl, hhas⟩ | hheld
  · rcases hcases _ _ _ h' with ⟨-, hhas'⟩ | hheld'
    · exact hhas.eq hhas'
    · exact absurd hheld' not_has_latency
  · rcases hcases _ _ _ h' with ⟨rfl, -⟩ | hheld'
    · exact absurd hheld not_has_latency
    · exact hheld.eq hheld'

/-- The group that fails has only keys of its own to keep. -/
theorem keepsItsOwn_oneFailed (sample : Sample) (e : QueryError) :
    KeepsItsOwn heldForRequests ∅ (oneFailed sample e) := by
  intro before q e' after key v group hsplit _ hheld
  have hmem : (q, .error e') ∈ oneFailed sample e := by
    rw [hsplit]
    simp
  have hq : q = queryNamed "requests" .group := by
    rcases List.mem_cons.1 hmem with heq | hmem
    · cases heq
    · exact congrArg Prod.fst (List.mem_singleton.1 hmem)
  exact .inl (.kept q e' hmem (hq ▸ stores_of_heldForRequests hheld) hheld)

/-- A failed group keeps what was held for it, beside a metric that is answered. -/
theorem collect_consists_iff_oneFailed :
    let s := requestsBeside "latency" .value
    let w := backedWorld heldForRequests [("latency", .ok (.scalar 3))]
    ∃ c tr w' sample e, Runs World.Answers (collect s Pass.reviews ⟨0⟩).run w tr (.ok c) w' ∧
      Consists heldForRequests ∅ (oneFailed sample e) c.material := by
  intro s w
  let p := (collect s Pass.reviews ⟨0⟩).run
  have hrun := Program.runs_answers_runAlone p w
  -- the run itself tells what was seen and of what shape the replies were
  obtain ⟨hok, hglance, hshapes⟩ : (p.runAlone w).1.isOk = true ∧
      Trace.agree ((Trace.observed (p.traceAlone w)).take 2) glance = true ∧
      (Trace.observed (p.traceAlone w)).flatMap shapes = [some [∅], none] := by decide
  obtain ⟨c, hc⟩ := exists_eq_ok_of_isOk hok
  rw [hc] at hrun
  obtain ⟨service, pods, replies, hfits, hobserved, hiff⟩ := collect_consists_iff sound_answers hrun
  have hrender : Query.render Pass.reviews ∅ s.handlers s.maxSubsets =
      [queryNamed "latency" .value, queryNamed "requests" .group] := by decide
  obtain ⟨hgroups, r₁, r₂, hr₁, hr₂, hanswers⟩ :=
    answers_of_glance hfits hobserved hglance hshapes hrender
  obtain ⟨sample, rfl, -⟩ := ok_of_shape hr₁
  obtain ⟨e, rfl⟩ := error_of_shape hr₂
  dsimp only at hiff
  rw [hanswers, hgroups] at hiff
  exact ⟨c, _, _, sample, e, hrun, (hiff ⟨_, sample, List.mem_cons_self⟩).2
    ⟨unambiguous_oneFailed sample e, keepsItsOwn_oneFailed sample e⟩⟩

/-- A value of the group `requests.errors`. -/
def heldForErrors : Material :=
  ({} : Material).insert (Sample.memberKey "requests.errors" ((∅ : Labels).insert "code" "500")) "2"

/-- A group that is not answered, and a group that is. -/
def siblings (e : QueryError) (sample : Sample) : List (Query × QueryReply) :=
  [(queryNamed "requests" .group, .error e), (queryNamed "requests.errors" .group, .ok sample)]

/-- No value of a group is one of the group whose name ends at an earlier dot. -/
theorem memberKey_ne (labels labels' : Labels) :
    Sample.memberKey "requests.errors" labels ≠ Sample.memberKey "requests" labels' := by
  intro h
  have hchars := congrArg String.toList h
  simp only [Sample.memberKey, Sample.signature, String.toList_append] at hchars
  simp at hchars

/-- The value that was held belongs to the group that is answered, so it is not to be kept. -/
theorem not_belongs_siblings {e : QueryError} {sample : Sample}
    (hlabels : sample.points.map Prod.fst = [(∅ : Labels).insert "code" "503"]) (v : String)
    (group : Bool) :
    ¬ Belongs heldForErrors ∅ (siblings e sample)
      (Sample.memberKey "requests.errors" ((∅ : Labels).insert "code" "500")) v group := by
  intro h
  -- no count, and the answered group has another code; the failed one has no such key
  cases h with
  | count has => exact Material.not_has_empty has
  | sampled q s mem has =>
    rcases List.mem_cons.1 mem with heq | mem
    · cases heq
    · cases List.mem_singleton.1 mem
      rcases Sample.key_of_has_entries has with hkey | ⟨-, labels, hmem, hkey⟩
      · exact absurd hkey (by decide)
      · rw [hlabels, List.mem_singleton] at hmem
        rw [hmem] at hkey
        exact absurd hkey (by decide +kernel)
  | kept q e' mem stores has =>
    rcases List.mem_cons.1 mem with heq | mem
    · cases heq
      rcases stores with hkey | ⟨-, labels, hkey⟩
      · exact absurd hkey (by decide)
      · exact memberKey_ne _ _ hkey
    · cases List.mem_singleton.1 mem

/-- The group `requests` fails and keeps a value of the group `requests.errors`, which is answered
with another value. -/
theorem exists_sibling_disturbed : ¬ ∀ (s : Settings) (id : ResourceId) (e : EntryId) (w w' : World)
    (tr : Trace) (c : Collected), Runs World.Answers (collect s id e).run w tr (.ok c) w' →
    ∀ service pods replies, (Observation.complete service c.subsets pods replies).Fits →
    tr.observed = (Observation.complete service c.subsets pods replies).events s id →
    ∀ groups answers, groups = PodGroups.ofPods pods c.subsets →
    answers = (Query.render id groups s.handlers s.maxSubsets).zip replies →
    (∃ q sample, (q, .ok sample) ∈ answers) →
    Consists (w.held.store.get e).material groups answers c.material := by
  intro h
  let s := requestsBeside "requests.errors" .group
  let w := backedWorld heldForErrors
    [("requests.errors", .ok (.vector [((∅ : Labels).insert "code" "503", 3)]))]
  let p := (collect s Pass.reviews ⟨0⟩).run
  have hrun := Program.runs_answers_runAlone p w
  obtain ⟨hok, hglance, hshapes⟩ : (p.runAlone w).1.isOk = true ∧
      Trace.agree ((Trace.observed (p.traceAlone w)).take 2) glance = true ∧
      (Trace.observed (p.traceAlone w)).flatMap shapes
        = [none, some [(∅ : Labels).insert "code" "503"]] := by
    decide
  obtain ⟨c, hc⟩ := exists_eq_ok_of_isOk hok
  rw [hc] at hrun
  obtain ⟨service, pods, replies, hfits, hobserved, hmaterial⟩ :=
    material_of_runs sound_answers hrun
  have hrender : Query.render Pass.reviews ∅ s.handlers s.maxSubsets =
      [queryNamed "requests" .group, queryNamed "requests.errors" .group] := by decide
  obtain ⟨hgroups, r₁, r₂, hr₁, hr₂, hanswers⟩ :=
    answers_of_glance hfits hobserved hglance hshapes hrender
  obtain ⟨e, rfl⟩ := error_of_shape hr₁
  obtain ⟨sample, rfl, hlabels⟩ := ok_of_shape hr₂
  have hmem : (queryNamed "requests.errors" .group, .ok sample) ∈ siblings e sample := by
    simp [siblings]
  have hanswers : _ = siblings e sample := hanswers
  have hconsists := h s Pass.reviews ⟨0⟩ w _ _ c hrun service pods replies hfits hobserved ∅
    (siblings e sample) hgroups.symm (by rw [← hgroups, hanswers]) ⟨_, sample, hmem⟩
  dsimp only at hmaterial
  rw [hanswers, hgroups] at hmaterial
  rw [hmaterial _ _ hmem, consists_iff] at hconsists
  -- what the failed group keeps neither belongs to the material nor is it written over
  have hheld : heldForErrors.Has (Sample.memberKey "requests.errors"
      ((∅ : Labels).insert "code" "500")) "2"
      false := by
    unfold heldForErrors
    rw [Material.Has, Material.slot_insert, if_pos rfl]
  have howns : (queryNamed "requests" .group).owns
      (Sample.memberKey "requests.errors" ((∅ : Labels).insert "code" "500")) = true := by
      decide +kernel
  rcases hconsists.2 [] _ e _ _ _ _ rfl howns hheld with hbelongs | ⟨q', s', v', group', hs, hhas⟩
  · exact not_belongs_siblings hlabels _ _ hbelongs
  · have hmem' : (q', .ok s') ∈ siblings e sample := List.mem_cons_of_mem _ hs
    exact not_belongs_siblings hlabels v' group' (.sampled q' s' hmem' hhas)

end Collected

end MeshLimiter
