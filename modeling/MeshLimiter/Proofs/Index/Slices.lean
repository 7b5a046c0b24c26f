import MeshLimiter.Proofs.Index.Notice
import Mathlib.Data.List.ReduceOption
/-!
# What the index of slices knows

The index of slices is told of versions of slices and of slices that are gone. A version without the
label of a service is passed over, so a slice that loses the label stays recorded under the service
that it had, and the limiter of that service is not told.

* **`SliceNews.versions`**: the versions of a slice since it was last gone, whatever the index does;
* **`SliceIndex.Records`**: the index holds the service of the last version that has one;
* **`SliceIndex.Records.apply`**, **`SliceIndex.Records.delete`**: operations keep this;
* **`Indexes.slices_mirrored_iff`**: when that is the service of the slice, and which changes are
  published.
-/

namespace MeshLimiter

/-- The service that a slice belongs to, if it has the label. -/
def EndpointSlice.service? (s : EndpointSlice) : Option String :=
  (s.metadata.labels.getD ∅)[SliceIndex.serviceLabel]?

/-! ## What is told of slices

Only the last version of a slice that has a service, and whether the slice is gone since, matter for
the record. -/

/-- What can be told of a slice: a version of it, with its service if it has the label of one, or
that the slice is gone. -/
inductive SliceNews where
  | version (id : ResourceId) (service : Option String)
  | gone (id : ResourceId)
deriving DecidableEq

namespace SliceNews

/-- The slice that it is about. -/
def id : SliceNews → ResourceId
  | version id _ | gone id => id

/-- A slice in a namespace tells of a version. -/
def ofSlice (s : EndpointSlice) : List SliceNews :=
  if s.metadata.ns.isSome then [version s.metadata.id s.service?] else []

/-- What an event tells, in order. -/
def ofEvent : Indexes.Event → List SliceNews
  | .slices (.apply s) => ofSlice s
  | .slices (.delete id) => [gone id]
  | .slices (.reset live removed) => live.flatMap ofSlice ++ removed.ids.map gone
  | .limiters _ | .subsets _ => []

/-- What all that happens to the indexes tells of slices, in order. -/
def ofCalls (calls : List Indexes.Call) : List SliceNews :=
  calls.flatMap fun
    | .handle e => ofEvent e
    | _ => []

/-- The versions of a slice after some news, given those before it: each by its service. -/
def next (slice : ResourceId) (versions : List (Option String)) : SliceNews → List (Option String)
  | version id service => if id = slice then versions ++ [service] else versions
  | gone id => if id = slice then [] else versions

/-- The versions of a slice since it was last gone, in order. -/
def versions (slice : ResourceId) (news : List SliceNews) : List (Option String) :=
  news.foldl (next slice) []

/-- The service that a slice belongs to: that of its last version, if there is one and it has the
label. -/
def service? (slice : ResourceId) (news : List SliceNews) : Option String :=
  (versions slice news).getLast?.join

/-- The last version of a slice has no label, and an earlier one had. -/
def Unlabelled (slice : ResourceId) (news : List SliceNews) : Prop :=
  (versions slice news).getLast? = some none ∧ ∃ service, some service ∈ versions slice news

variable {slice : ResourceId} {news : List SliceNews} {n : SliceNews}

theorem versions_concat : versions slice (news ++ [n]) = next slice (versions slice news) n := by
  rw [versions, List.foldl_append]
  rfl

/-- A slice belongs to the service of its new version. -/
theorem service?_concat_version (service : Option String) :
    service? slice (news ++ [version slice service]) = service := by
  rw [service?, versions_concat, next, if_pos rfl, List.getLast?_concat, Option.join_some]

theorem service?_concat_gone : service? slice (news ++ [gone slice]) = none := by
  rw [service?, versions_concat, next, if_pos rfl]
  rfl

end SliceNews

open SliceNews (versions)

/-! ## What is recorded

The record is kept slice by slice, so each event changes what is recorded of one. -/

namespace SliceIndex

/-- Each slice is recorded under the service of its last version that has one. -/
def Records (x : SliceIndex) (news : List SliceNews) : Prop :=
  ∀ id, x.services[id]? = (versions id news).reduceOption.getLast?

variable {x : SliceIndex} {news : List SliceNews}

theorem records_empty : Records {} [] :=
  fun _ => rfl

/-- A version with a service is recorded, and one without is passed over. -/
theorem Records.apply (h : Records x news) (s : EndpointSlice) :
    Records (x.apply s).2 (news ++ SliceNews.ofSlice s) := by
  intro id
  unfold SliceIndex.apply SliceNews.ofSlice
  cases hns : s.metadata.ns with
  | none => simpa using h id
  | some ns =>
    rw [Option.isSome_some, if_pos rfl, SliceNews.versions_concat]
    unfold SliceNews.next
    cases hservice : s.service? with
    | none =>
      -- without a service the record stays, and the news adds a version that has none
      have hlabel : (s.metadata.labels.getD ∅)[serviceLabel]? = none := hservice
      simp only [hlabel]
      rw [h id]
      split
      · rw [List.reduceOption_append, List.reduceOption_singleton, Option.toList_none,
          List.append_nil]
      · rfl
    | some service =>
      -- the last version that names a service is now this one
      have hlabel : (s.metadata.labels.getD ∅)[serviceLabel]? = some service := hservice
      simp only [hlabel, Std.ExtTreeMap.getElem?_insert, Std.LawfulEqCmp.compare_eq_iff_eq]
      split
      · rw [List.reduceOption_append, List.reduceOption_singleton, Option.toList_some,
          List.getLast?_concat]
      · exact h id

/-- A slice that is deleted has no version. -/
theorem Records.delete (h : Records x news) (k : ResourceId) :
    Records (x.delete k).2 (news ++ [.gone k]) := by
  intro id
  rw [SliceNews.versions_concat]
  show (x.services.erase k)[id]? = (if k = id then [] else versions id news).reduceOption.getLast?
  simp only [Std.ExtTreeMap.getElem?_erase, Std.LawfulEqCmp.compare_eq_iff_eq]
  split
  · rfl
  · exact h id

/-- The same over a list of operations, one after another. -/
theorem Records.foldl {β : Type} {op : SliceIndex → β → List ResourceId × SliceIndex}
    (tell : β → List SliceNews) (hop : ∀ {x news} b, Records x news →
      Records (op x b).2 (news ++ tell b))
    (bs : List β) (acc : List ResourceId × SliceIndex) {news : List SliceNews}
    (h : Records acc.2 news) :
    Records (bs.foldl (fun acc b => (acc.1 ++ (op acc.2 b).1, (op acc.2 b).2)) acc).2
      (news ++ bs.flatMap tell) := by
  induction bs generalizing acc news with
  | nil => simpa using h
  | cons b bs ih =>
    rw [List.flatMap_cons, ← List.append_assoc]
    exact ih _ (hop b h)

/-- What is recorded of a slice is its service, unless the last version has lost the label. -/
theorem Records.eq_service_iff (h : Records x news) (id : ResourceId) :
    x.services[id]? = SliceNews.service? id news ↔ ¬ SliceNews.Unlabelled id news := by
  rw [h id, SliceNews.service?, SliceNews.Unlabelled]
  generalize versions id news = vs
  rcases List.eq_nil_or_concat vs with rfl | ⟨vs, v, rfl⟩
  · simp
  · rw [List.concat_eq_append, List.reduceOption_append, List.reduceOption_singleton]
    cases v with
    | some service => simp
    | none => simp [List.reduceOption_mem_iff, List.eq_nil_iff_forall_not_mem]

theorem Records.of_service (h : Records x news) {id : ResourceId} {service : String}
    (hservice : SliceNews.service? id news = some service) : x.services[id]? = some service := by
  rw [← hservice]
  refine (h.eq_service_iff id).2 fun hunlabelled => ?_
  rw [SliceNews.service?, hunlabelled.1] at hservice
  cases hservice

/-! ## What is published

The service of a version is published, and the service of a slice that is gone. -/

variable {s : EndpointSlice} {ns service : String}

/-- A version without a service publishes nothing. -/
theorem apply_of_unlabelled (h : s.service? = none) : (x.apply s).1 = [] := by
  have hlabel : (s.metadata.labels.getD ∅)[serviceLabel]? = none := h
  unfold SliceIndex.apply
  rw [hlabel]
  split
  · next heq => cases heq
  · rfl

/-- A version with a service publishes that service, and the one that was recorded. -/
theorem mem_apply (hns : s.metadata.ns.isSome = true) {label : String}
    (hlabel : s.service? = some label)
    (h : s.service? = some service ∨ x.services[s.metadata.id]? = some service) :
    { ns := s.metadata.id.ns, name := service } ∈ (x.apply s).1 := by
  obtain ⟨ns, hns⟩ := Option.isSome_iff_exists.1 hns
  have hid : s.metadata.id.ns = ns := Metadata.ns_id hns
  have hlabel' : (s.metadata.labels.getD ∅)[serviceLabel]? = some label := hlabel
  unfold SliceIndex.apply
  rw [hid, hns, hlabel']
  by_cases hsame : label = service
  · rw [hsame]
    exact List.mem_cons_self
  · have hrecorded := h.resolve_left fun h => hsame (Option.some.inj (hlabel.symm.trans h))
    refine List.mem_cons_of_mem _ (List.mem_map.2 ⟨service, ?_, rfl⟩)
    rw [hrecorded, Option.filter_some, if_pos (by simpa using Ne.symm hsame)]
    exact List.mem_singleton_self service

/-- A slice that is deleted publishes the service that was recorded. -/
theorem mem_delete {id : ResourceId} (h : x.services[id]? = some service) :
    { ns := id.ns, name := service } ∈ (x.delete id).1 := by
  unfold SliceIndex.delete
  rw [h]
  exact List.mem_singleton_self _

end SliceIndex

namespace Indexes

open SliceIndex (Records)

/-- A single event tells of a single slice. -/
inductive Tells : Event → SliceNews → Prop where
  | apply {s : EndpointSlice} (namespaced : s.metadata.ns.isSome = true) :
    Tells (.slices (.apply s)) (.version s.metadata.id s.service?)
  | delete (id : ResourceId) : Tells (.slices (.delete id)) (.gone id)

variable {x : Indexes} {news : List SliceNews}

theorem records_handle (h : Records x.slices.index news) (e : Event) :
    Records (x.handle e).slices.index (news ++ SliceNews.ofEvent e) := by
  cases e with
  | limiters | subsets =>
    rw [SliceNews.ofEvent, List.append_nil]
    exact h
  | slices e =>
    cases e with
    | apply s => exact h.apply s
    | delete id => exact h.delete id
    | reset live removed =>
      -- a reset applies the slices that live, then deletes those that are gone
      have hlive := Records.foldl SliceNews.ofSlice (fun s h => h.apply s) live
        ([], x.slices.index) h
      have hremoved := Records.foldl (fun id => [SliceNews.gone id]) (fun id h => h.delete id)
        removed.ids _ hlive
      rw [List.append_assoc, ← List.map_eq_flatMap] at hremoved
      exact hremoved

theorem records_callAll (h : Records x.slices.index news) (calls : List Call) :
    Records (x.callAll calls).slices.index (news ++ SliceNews.ofCalls calls) := by
  induction calls generalizing x news with
  | nil =>
    rw [SliceNews.ofCalls, List.flatMap_nil, List.append_nil]
    exact h
  | cons c calls ih =>
    rw [SliceNews.ofCalls, List.flatMap_cons, ← List.append_assoc]
    cases c with
    | handle e => exact ih (records_handle h e)
    | _ =>
      rw [List.append_nil]
      exact ih h

/-- What is told of a slice is published, unless it is that the slice has no service. -/
theorem mem_publish_of_tells (h : Records x.slices.index news) {e : Event} {n : SliceNews}
    (htells : Tells e n)
    {service : String} (hservice : SliceNews.service? n.id news = some service ∨
      SliceNews.service? n.id (news ++ [n]) = some service)
    (hinterest : ({ ns := n.id.ns, name := service } : ResourceId) ∈ x.interest) :
    { ns := n.id.ns, name := service } ∈ (x.publish e).2.1 ↔ n ≠ .version n.id none := by
  have hcontains := Std.ExtTreeSet.contains_iff_mem.2 hinterest
  cases htells with
  | @apply s hns =>
    show _ ∈ (x.slices.index.apply s).1.filter x.interest.contains ↔ _
    cases hlabel : s.service? with
    | none =>
      rw [SliceIndex.apply_of_unlabelled hlabel]
      -- a slice that lost its label asks for no refresh, whatever service it had
      exact iff_of_false List.not_mem_nil fun hne => hne rfl
    | some label =>
      refine iff_of_true (List.mem_filter.2 ⟨SliceIndex.mem_apply hns hlabel ?_, hcontains⟩)
        (by rintro ⟨⟩)
      rw [hlabel, SliceNews.id, SliceNews.service?_concat_version] at hservice
      rw [hlabel]
      exact hservice.symm.imp_right h.of_service
  | delete id =>
    refine iff_of_true (List.mem_filter.2 ⟨SliceIndex.mem_delete ?_, hcontains⟩) (by rintro ⟨⟩)
    rw [SliceNews.id, SliceNews.service?_concat_gone] at hservice
    exact h.of_service (hservice.resolve_right (by rintro ⟨⟩))

/-- **The index mirrors the live slices, except for those that have lost the label.** Whatever has
happened to the indexes of a cluster, what is recorded of a slice is the service that it belongs to,
exactly if it is not that its last version has no label and an earlier one had. An event that adds a
slice to a service, changes a slice of it, or takes one away publishes the limiter of the service,
if that is of interest, exactly if it is not a version without the label; the limiter then waits for
a pass over its metrics, or is marked to wait again, unless its push was refused because the queue
was full. -/
theorem slices_mirrored_iff (domain : String) (specCapacity metricCapacity : Nat)
    (calls : List Call) :
    let x := (empty domain specCapacity metricCapacity).callAll calls
    let news := SliceNews.ofCalls calls
    (∀ id, x.slices.index.services[id]? = SliceNews.service? id news ↔
      ¬ SliceNews.Unlabelled id news) ∧
    ∀ (e : Event) (n : SliceNews) (service : String), Tells e n →
      SliceNews.service? n.id news = some service ∨
      SliceNews.service? n.id (news ++ [n]) = some service →
      let limiter : ResourceId := { ns := n.id.ns, name := service }
      limiter ∈ x.interest →
        (limiter ∈ (x.publish e).2.1 ↔ n ≠ .version n.id none) ∧
        (n ≠ .version n.id none → limiter ∈ (x.handle e).metricQueue.pending ∨
          limiter ∈ (x.handle e).metricQueue.dirty ∨
          x.metricQueue.RefusedAmong (x.publish e).2.1 limiter) := by
  intro x news
  have hrecords : Records x.slices.index ([] ++ news) :=
    records_callAll SliceIndex.records_empty calls
  rw [List.nil_append] at hrecords
  have hregular : Regular domain x := regular_callAll domain specCapacity metricCapacity calls
  refine ⟨fun id => hrecords.eq_service_iff id, ?_⟩
  intro e n service htells hservice limiter hinterest
  have hpublished := mem_publish_of_tells hrecords htells hservice hinterest
  exact ⟨hpublished, fun hlabelled => hregular.waits_of_publish (hpublished.2 hlabelled)⟩

/-- A version of the slice `a` in namespace `web`, with the label of a service or without. -/
def webSlice (service : Option String) : EndpointSlice :=
  { metadata :=
    { ns := some "web", name := some "a", labels := service.map fun s =>
        {(SliceIndex.serviceLabel, s)} } }

/-- A slice without the label is given that of `reviews`, which is of interest, and the pass that
this asks for is taken. -/
def labelled : List Call :=
  [.addInterest (webService "reviews"), .handle (.slices (.apply (webSlice none))),
    .handle (.slices (.apply (webSlice (some "reviews")))), .metricQueue .tryPop,
    .metricQueue (.done (webService "reviews"))]

/-- The slice moves to `ratings`: it was recorded under `reviews`, and that limiter waits for
another pass. -/
theorem slices_mirrored_moved :
    let x := (empty "cluster.local" 4 4).callAll labelled
    let e : Event := .slices (.apply (webSlice (some "ratings")))
    x.slices.index.services[webService "a"]? = some "reviews" ∧ x.metricQueue.pending = [] ∧
      webService "reviews" ∈ (x.publish e).2.1 := by
  intro x e
  have hqueue : x.metricQueue.pending = [] ∧ x.interest.contains (webService "reviews") = true := by
    decide
  have hlast : (versions (webService "a") (SliceNews.ofCalls labelled)).getLast?
      = some (some "reviews") := by
    decide
  have hservice : SliceNews.service? (webService "a") (SliceNews.ofCalls labelled)
      = some "reviews" := by
    rw [SliceNews.service?, hlast, Option.join_some]
  have hunlabelled : ¬ SliceNews.Unlabelled (webService "a") (SliceNews.ofCalls labelled) := by
    rintro ⟨hnone, -⟩
    rw [hlast] at hnone
    cases hnone
  obtain ⟨hrecorded, hpublished⟩ := slices_mirrored_iff "cluster.local" 4 4 labelled
  refine ⟨((hrecorded (webService "a")).2 hunlabelled).trans hservice, hqueue.1, ?_⟩
  have htells : Tells e (.version (webService "a") (some "ratings")) :=
    .apply (s := webSlice (some "ratings")) rfl
  have hwanted := Std.ExtTreeSet.contains_iff_mem.1 hqueue.2
  exact (hpublished e _ "reviews" htells (.inl hservice) hwanted).1.2 (by rintro ⟨⟩)

/-- A slice of `reviews` loses the label: it is still recorded there, and the limiter is not
told. -/
theorem exists_slice_kept :
    let lost : Event := .slices (.apply (webSlice none))
    let x := (empty "cluster.local" 4 4).callAll labelled
    let news := SliceNews.ofCalls labelled
    SliceNews.service? (webService "a") news = some "reviews" ∧
      SliceNews.service? (webService "a") (news ++ SliceNews.ofEvent lost) = none ∧
      (x.handle lost).slices.index.services[webService "a"]? = some "reviews" ∧
      webService "reviews" ∈ x.interest ∧ (x.publish lost).2.1 = [] := by
  intro lost x news
  have hinterest : x.interest.contains (webService "reviews") = true := by decide
  exact ⟨by decide, by decide, by decide,
    Std.ExtTreeSet.contains_iff_mem.1 hinterest, by decide⟩

end Indexes

end MeshLimiter
