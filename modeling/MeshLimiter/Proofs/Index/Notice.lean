import MeshLimiter.Proofs.Index.Subsets
import MeshLimiter.Proofs.Queue.Traces
import MeshLimiter.Proofs.Text.Search
/-!
# Changes to subsets are noticed

Four places have to mean the same host: where a rule is filed, where the subsets of a service are
asked for, and the way back from a host to the service that is published. They do, whatever an event
does to the rules, so a limiter of interest whose subsets change is due for a pass over its metrics.

* **`Host.service?_serviceHost`**: the host that a service is asked for leads back to it;
* **`SubsetIndex.Notices`**: an operation names every service whose subsets it changes;
* **`Queue.due_or_refused`**: a key that is pushed among others is due, unless its push was refused;
* **`Indexes.subset_change_noticed`**: so no change goes unnoticed in any run.
-/

namespace MeshLimiter

/-- **The host that a service is asked for leads back to it**, if its name has no point. Its
namespace may have some. -/
theorem Host.service?_serviceHost {id : ResourceId} (h : '.' ∉ id.name.toList) (domain : String) :
    service? (id.serviceHost domain) domain = some id := by
  have hhost : (id.serviceHost domain).toList
      = (id.name.toList ++ ('.' :: id.ns.toList)) ++ clusterSuffix domain := by
    unfold ResourceId.serviceHost clusterSuffix
    rw [String.toList_append (t := domain), String.toList_append (t := ".svc."),
      String.toList_append (t := id.ns), String.toList_append (t := "."), List.append_assoc,
      List.append_assoc id.name.toList]
    rfl
  have hbefore : Text.before? (clusterSuffix domain) (id.serviceHost domain).toList
      = some (id.name.toList ++ ('.' :: id.ns.toList)) := by
    rw [hhost, Text.before?, if_pos (List.isSuffixOf_iff_suffix.2 (List.suffix_append ..)),
      List.length_append, Nat.add_sub_cancel, List.take_left]
  -- the first point ends the name, which has none
  have hcut : Text.cutAt? ['.'] (id.name.toList ++ ('.' :: id.ns.toList))
      = some (id.name.toList, id.ns.toList) := by
    refine Text.cutAt?_append (fun hinfix => h ?_) (List.cons_ne_nil _ _)
    have hmem : '.' ∈ id.name.toList ++ [] := hinfix.subset List.mem_cons_self
    rwa [List.append_nil] at hmem
  simp only [service?, hbefore, Option.bind_eq_bind, Option.bind_some, hcut, String.ofList_toList]
  rfl

namespace SubsetIndex

/-- What an operation gave names every service whose subsets it changed. The domain stays, so that
hosts mean what they did. -/
structure Notices (x : SubsetIndex) (r : List ResourceId × SubsetIndex) : Prop where
  domain_eq : r.2.domain = x.domain
  mem : ∀ host id, Host.service? host x.domain = some id →
    r.2.subsets host ≠ x.subsets host → id ∈ r.1

variable {x y z : SubsetIndex} {ids more : List ResourceId} {host : String} {id rule : ResourceId}

/-- Nothing is done, and nothing changes. -/
theorem Notices.refl (x : SubsetIndex) : Notices x ([], x) where
  domain_eq := rfl
  mem _ _ _ hchanged := (hchanged rfl).elim

/-- Of two operations, one after another, each names what it changes. -/
theorem Notices.trans (hx : Notices x (ids, y)) (hy : Notices y (more, z)) :
    Notices x (ids ++ more, z) where
  domain_eq := hy.domain_eq.trans hx.domain_eq
  mem host id hservice hchanged := by
    by_cases hfirst : y.subsets host = x.subsets host
    · rw [← hfirst] at hchanged
      exact List.mem_append_right _ (hy.mem host id (hx.domain_eq.symm ▸ hservice) hchanged)
    · exact List.mem_append_left _ (hx.mem host id hservice hfirst)

/-- The service that a host leads back to is affected. -/
theorem mem_affected (h : Host.service? host x.domain = some id) : id ∈ x.affected host := by
  rw [affected, h]
  exact List.mem_singleton_self id

/-- The subsets of a host depend on the rules filed there. -/
theorem subsets_congr (h : y.byHost.getD host ∅ = x.byHost.getD host ∅) :
    y.subsets host = x.subsets host := by
  rw [subsets, subsets, h]

/-! ## Operations

A rule may leave one host and come to another; both are named. -/

theorem domain_remove (x : SubsetIndex) (rule : ResourceId) :
    (x.remove rule).2.domain = x.domain := by
  unfold remove
  split <;> rfl

/-- A rule that is removed was filed under the host that is given, if under any. -/
theorem getD_byHost_remove (h : (x.remove rule).1 ≠ some host) :
    (x.remove rule).2.byHost.getD host ∅ = x.byHost.getD host ∅ := by
  unfold remove at h ⊢
  split
  · rfl
  · next noted hnoted =>
    rw [hnoted] at h
    show (dropRule x.byHost noted rule).getD host ∅ = _
    rw [getD_dropRule, if_neg fun heq => h (congrArg some heq)]

theorem notices_delete (x : SubsetIndex) (rule : ResourceId) : Notices x (x.delete rule) where
  domain_eq := domain_remove x rule
  mem host id hservice hchanged := by
    show id ∈ (x.remove rule).1.toList.flatMap x.affected
    -- only the host that the rule was filed under can have lost something
    have hhost : (x.remove rule).1 = some host :=
      Classical.byContradiction fun hother => hchanged (subsets_congr (getD_byHost_remove hother))
    rw [hhost]
    exact List.mem_flatMap.2 ⟨host, List.mem_singleton_self host, mem_affected hservice⟩

/-- A rule that is applied changes the subsets of its host, and those of the host that it leaves. -/
theorem notices_apply (x : SubsetIndex) (r : TrafficRule) : Notices x (x.apply r) := by
  unfold apply
  cases r.metadata.ns with
  | none => exact Notices.refl x
  | some ns =>
    dsimp only
    split
    · exact Notices.refl x
    · refine ⟨domain_remove x r.metadata.id, fun host id hservice hchanged => List.mem_append.2 ?_⟩
      by_cases hto : Host.normalize r.spec.host ns x.domain = host
      · rw [hto]
        exact .inr (mem_affected hservice)
      · -- so it is the host that the rule leaves
        have hfrom : (x.remove r.metadata.id).1 = some host := by
          refine Classical.byContradiction fun hother => hchanged (subsets_congr ?_)
          show ((x.remove r.metadata.id).2.byHost.insert _ _).getD host ∅ = x.byHost.getD host ∅
          rw [Std.ExtTreeMap.getD_insert, if_neg (by simpa using hto)]
          exact getD_byHost_remove hother
        refine .inl (List.mem_flatMap.2 ⟨host, ?_, mem_affected hservice⟩)
        rw [hfrom, Option.filter_some, if_pos (by simpa using Ne.symm hto)]
        exact List.mem_singleton_self host

/-- Operations one after another name what each of them has changed. -/
theorem Notices.foldl {β : Type} {op : SubsetIndex → β → List ResourceId × SubsetIndex}
    (hop : ∀ y b, Notices y (op y b)) (bs : List β) {acc : List ResourceId × SubsetIndex}
    (h : Notices x acc) :
    Notices x (bs.foldl (fun acc b => (acc.1 ++ (op acc.2 b).1, (op acc.2 b).2)) acc) :=
  List.foldlRecOn bs _ h fun acc hacc b _ => hacc.trans (hop acc.2 b)

/-- **Every event names the services whose subsets it changes.** -/
theorem notices_handle (x : Measured SubsetIndex) (e : IndexEvent TrafficRule) :
    Notices x.index ((x.handle ops e).1, (x.handle ops e).2.index) := by
  cases e with
  | apply r => exact notices_apply x.index r
  | delete id => exact notices_delete x.index id
  | reset live removed =>
    exact Notices.foldl notices_delete removed.ids
      (Notices.foldl notices_apply live (Notices.refl x.index))

end SubsetIndex

namespace Queue

variable {q : Queue} {id : ResourceId} {ids : List ResourceId}

/-- The push of one of some keys was refused, because the queue was full when its turn came. -/
def RefusedAmong (q : Queue) (ids : List ResourceId) (id : ResourceId) : Prop :=
  ∃ before behind, ids = before ++ id :: behind ∧ ((q.pushAll before).push id).1 = .refused ∧
    (q.pushAll before).capacity ≤ (q.pushAll before).pending.length

/-- **A key that is pushed among others is due**, unless its push was refused. -/
theorem due_or_refused (hq : q.Orderly) (h : id ∈ ids) :
    (q.pushAll ids).Due id ∨ q.RefusedAmong ids id := by
  obtain ⟨before, behind, rfl⟩ := List.append_of_mem h
  cases hpush : ((q.pushAll before).push id).1.accepted with
  | true =>
    -- the keys behind it do not push it out
    left
    rw [pushAll_append]
    exact (due_push hpush).pushAll behind
  | false =>
    have hfull := ((push_refused_iff (hq.pushAll before)).1 hpush).2.2
    refine .inr ⟨before, behind, rfl, ?_, hfull⟩
    cases houtcome : ((q.pushAll before).push id).1 <;> rw [houtcome] at hpush <;>
      first | rfl | cases hpush

end Queue

namespace Indexes

/-- What can happen to the indexes: an event comes, interest is gained or lost, or a queue is
called. -/
inductive Call where
  | handle (e : Event)
  | addInterest (id : ResourceId)
  | dropInterest (id : ResourceId)
  | specQueue (c : Queue.Call)
  | metricQueue (c : Queue.Call)

def call (x : Indexes) : Call → Indexes
  | .handle e => x.handle e
  | .addInterest id => (x.addInterest id).2
  | .dropInterest id => (x.dropInterest id).2
  | .specQueue c => { x with specQueue := (x.specQueue.answer c).2 }
  | .metricQueue c => { x with metricQueue := (x.metricQueue.answer c).2 }

def callAll (x : Indexes) (calls : List Call) : Indexes :=
  calls.foldl call x

variable {x : Indexes} {domain : String} {id : ResourceId}

/-- The indexes of a cluster's domain, with the metric queue in order. -/
structure Regular (domain : String) (x : Indexes) : Prop where
  domain_eq : x.subsets.index.domain = domain
  metricQueue : x.metricQueue.Orderly

theorem Regular.handle (h : Regular domain x) (e : Event) : Regular domain (x.handle e) where
  domain_eq := by
    cases e with
    | limiters e => exact h.domain_eq
    | slices e => exact h.domain_eq
    | subsets e => exact (SubsetIndex.notices_handle x.subsets e).domain_eq.trans h.domain_eq
  metricQueue := by
    cases e with
    | limiters e => exact h.metricQueue.pushAll _
    | slices e => exact h.metricQueue.pushAll _
    | subsets e => exact h.metricQueue.pushAll _

theorem Regular.call (h : Regular domain x) (c : Call) : Regular domain (x.call c) := by
  cases c with
  | handle e => exact h.handle e
  | addInterest id => exact ⟨h.domain_eq, h.metricQueue⟩
  | dropInterest id => exact ⟨h.domain_eq, h.metricQueue⟩
  | specQueue c => exact ⟨h.domain_eq, h.metricQueue⟩
  | metricQueue c => exact ⟨h.domain_eq, h.metricQueue.answer c⟩

/-- Whatever happens, the domain stays and the metric queue is in order. -/
theorem regular_callAll (domain : String) (specCapacity metricCapacity : Nat) (calls : List Call) :
    Regular domain ((empty domain specCapacity metricCapacity).callAll calls) := by
  have hrun : ∀ (calls : List Call) (x : Indexes), Regular domain x →
      Regular domain (x.callAll calls) := by
    intro calls
    induction calls with
    | nil => exact fun _ h => h
    | cons c calls ih => exact fun _ h => ih _ (h.call c)
  exact hrun calls _ ⟨rfl, Queue.orderly_ofCapacity metricCapacity⟩

/-- A limiter of interest is published if the subsets of its service change. -/
theorem mem_publish_of_changed (hdomain : x.subsets.index.domain = domain)
    (hname : '.' ∉ id.name.toList) (hinterest : id ∈ x.interest) {e : Event}
    (hchanged : (x.handle e).subsets.index.subsets (id.serviceHost domain)
      ≠ x.subsets.index.subsets (id.serviceHost domain)) : id ∈ (x.publish e).2.1 := by
  cases e with
  | limiters e => exact (hchanged rfl).elim
  | slices e => exact (hchanged rfl).elim
  | subsets e =>
    have hservice : Host.service? (id.serviceHost domain) x.subsets.index.domain = some id := by
      rw [hdomain]
      exact Host.service?_serviceHost hname domain
    exact List.mem_filter.2 ⟨(SubsetIndex.notices_handle x.subsets e).mem _ _ hservice hchanged,
      Std.ExtTreeSet.contains_iff_mem.2 hinterest⟩

/-- A limiter that an event publishes for its metrics waits for a pass, or is marked to wait again,
unless its push was refused. -/
theorem Regular.waits_of_publish (h : Regular domain x) {e : Event} (hid : id ∈ (x.publish e).2.1) :
    id ∈ (x.handle e).metricQueue.pending ∨ id ∈ (x.handle e).metricQueue.dirty ∨
      x.metricQueue.RefusedAmong (x.publish e).2.1 id := by
  have hqueue : (x.handle e).metricQueue = x.metricQueue.pushAll (x.publish e).2.1 := by
    cases e <;> rfl
  rcases Queue.due_or_refused h.metricQueue hid with hdue | hrefused
  · rw [← hqueue] at hdue
    rcases hdue with hqueued | hdirty
    · exact .inl (((h.handle e).metricQueue.pending id).2 hqueued)
    · exact .inr (.inl hdirty)
  · exact .inr (.inr hrefused)

/-- **No change to subsets goes unnoticed.** Whatever has happened to the indexes of a cluster: if
an event changes the subsets of the host that a service is asked for, and the service has a limiter
of interest and a name without a point, the limiter waits for a pass over its metrics after the
event, or is marked to wait again, unless its push was refused because the queue was full. -/
theorem subset_change_noticed (domain : String) (specCapacity metricCapacity : Nat)
    (calls : List Call) (e : Event) (id : ResourceId) (hname : '.' ∉ id.name.toList) :
    let x := (empty domain specCapacity metricCapacity).callAll calls
    let y := x.handle e
    y.subsets.index.subsets (id.serviceHost domain) ≠ x.subsets.index.subsets
    (id.serviceHost domain) →
      id ∈ x.interest → id ∈ y.metricQueue.pending ∨ id ∈ y.metricQueue.dirty ∨
        x.metricQueue.RefusedAmong (x.publish e).2.1 id := by
  intro x y hchanged hinterest
  have hx : Regular domain x := regular_callAll domain specCapacity metricCapacity calls
  exact hx.waits_of_publish (mem_publish_of_changed hx.domain_eq hname hinterest hchanged)

/-- A rule with one subset, for some host. -/
def versionRule (host : String) : Event :=
  .subsets (.apply
    { metadata := { ns := some "web", name := some "a" },
        spec := { host, subsets := [⟨"v1", ∅⟩] } })

/-- The service in namespace `web` of some name. -/
def webService (name : String) : ResourceId := { ns := "web", name }

/-- What comes before the rule moves: it is there for `ratings`, and two limiters are of
interest. -/
def beforeMove : List Call :=
  [.handle (versionRule "ratings"), .addInterest (webService "ratings"),
    .addInterest (webService "reviews")]

/-- A rule moves from `ratings` to `reviews`, and both services lose or gain a subset by it. With
room for one key only, the limiter of the service that the rule leaves is pushed first, and that of
the other is refused. -/
theorem subset_change_noticed_movedRule :
    let x := (empty "cluster.local" 1 1).callAll beforeMove
    let y := x.handle (versionRule "reviews")
    y.subsets.index.subsets ((webService "reviews").serviceHost "cluster.local")
        ≠ x.subsets.index.subsets ((webService "reviews").serviceHost "cluster.local") ∧
      y.subsets.index.subsets ((webService "ratings").serviceHost "cluster.local") = [] ∧
      y.metricQueue.pending = [webService "ratings"] ∧
      x.metricQueue.RefusedAmong (x.publish (versionRule "reviews")).2.1
        (webService "reviews") := by
  -- both services change, and there is room for one key
  have hmove : let x := (empty "cluster.local" 1 1).callAll beforeMove
      let y := x.handle (versionRule "reviews")
      y.subsets.index.subsets ((webService "reviews").serviceHost "cluster.local")
          ≠ x.subsets.index.subsets ((webService "reviews").serviceHost "cluster.local") ∧
        y.subsets.index.subsets ((webService "ratings").serviceHost "cluster.local") = [] ∧
        y.metricQueue.pending = [webService "ratings"] ∧ y.metricQueue.dirty.isEmpty = true ∧
        x.interest.contains (webService "reviews") = true := by
    decide +kernel
  obtain ⟨hchanged, hlost, hpending, hdirty, hinterest⟩ := hmove
  refine ⟨hchanged, hlost, hpending, ?_⟩
  rcases subset_change_noticed "cluster.local" 1 1 beforeMove (versionRule "reviews")
    (webService "reviews")
    (by decide +kernel) hchanged (Std.ExtTreeSet.contains_iff_mem.1 hinterest) with hwaits |
    hmarked | hrefused
  · rw [hpending] at hwaits
    exact absurd (List.mem_singleton.1 hwaits) (by decide)
  · rw [Std.ExtTreeSet.isEmpty_iff.1 hdirty] at hmarked
    exact (Std.ExtTreeSet.not_mem_empty hmarked).elim
  · exact hrefused

end Indexes

end MeshLimiter
