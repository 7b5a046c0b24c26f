import MeshLimiter.Index.Basic
/-!
# What the index of subsets answers

The index of subsets files each traffic rule under its host while rules come, change, move from host
to host and go. Whatever came before, it holds the rules that are live, and nothing else.

* **`LiveRules.after`**: the rules that are live after an event, whatever the index does;
* **`SubsetIndex.Reflects`**: the index holds the live rules, each under its host;
* **`SubsetIndex.Reflects.apply`**, **`SubsetIndex.Reflects.remove`**: operations keep this;
* **`Indexes.subsets_reflect_rules`**: so the subsets of a host are those of its live rules.
-/

namespace MeshLimiter

/-! ## The rules that are live

What the index answers has to come from these alone, in the order of their keys. -/

/-- Specifications of traffic rules. -/
abbrev LiveRules := Std.ExtTreeMap ResourceId TrafficRuleSpec

namespace LiveRules

/-- A rule stands as it was applied last. One without a namespace is none that could be live. -/
def apply (m : LiveRules) (r : TrafficRule) : LiveRules :=
  if r.metadata.ns.isSome then m.insert r.metadata.id r.spec else m

/-- The rules that are live after an event, given those before it. -/
def after (m : LiveRules) : Indexes.Event → LiveRules
  | .subsets (.apply r) => m.apply r
  | .subsets (.delete id) => m.erase id
  | .subsets (.reset live removed) =>
    removed.ids.foldl Std.ExtTreeMap.erase (live.foldl apply m)
  | .limiters _ | .slices _ => m

/-- The rules that are live after all of some events, if there were none before. -/
def afterAll (es : List Indexes.Event) : LiveRules :=
  es.foldl after ∅

end LiveRules

/-- The first subset of each name is what is left when those are dropped whose name was met
before. -/
theorem Subset.firstOfEach_eq_eraseDupsBy (subsets : List Subset) :
    firstOfEach subsets = subsets.eraseDupsBy fun a b => a.name == b.name := by
  have hloop : ∀ known, subsets.foldl addNew known
      = List.eraseDupsBy.loop (fun a b => a.name == b.name) subsets known.reverse := by
    induction subsets with
    | nil => simp [List.eraseDupsBy.loop]
    | cons s subsets ih =>
      intro known
      have hmet : known.reverse.any (fun k => s.name == k.name) = known.any fun k =>
          k.name == s.name := by
        rw [List.any_reverse]
        exact congrArg known.any (funext fun k => BEq.comm)
      rw [List.foldl_cons, ih, List.eraseDupsBy.loop, hmet, addNew]
      cases known.any fun k => k.name == s.name with
      | true => rfl
      | false => simp
  exact hloop []

theorem Metadata.ns_id {m : Metadata} {ns : String} (h : m.ns = some ns) : m.id.ns = ns := by
  unfold Metadata.id
  rw [h]
  rfl

namespace SubsetIndex

/-- The host that the index files a rule under. -/
def hostOf (domain : String) (rule : ResourceId) (spec : TrafficRuleSpec) : String :=
  Host.normalize spec.host rule.ns domain

/-- The subsets that a rule declares for a host. -/
def declaredFor (domain host : String) (rule : ResourceId) (spec : TrafficRuleSpec) :
    Option (List Subset) :=
  if hostOf domain rule spec = host then some spec.subsets else none

/-- The index of a cluster's domain holds some rules: each has its host noted and is filed there and
nowhere else, and no host is left behind with nothing under it. -/
structure Reflects (domain : String) (x : SubsetIndex) (m : LiveRules) : Prop where
  domain_eq : x.domain = domain
  hosts : ∀ id, x.hosts[id]? = m[id]?.map (hostOf domain id)
  filed : ∀ host id, (x.byHost.getD host ∅)[id]? = m[id]?.bind (declaredFor domain host id)
  occupied : ∀ host : String, x.byHost[host]? ≠ some ∅

variable {x y : SubsetIndex} {m : LiveRules} {domain host : String} {id rule : ResourceId}
  {spec : TrafficRuleSpec}

theorem reflects_empty (domain : String) : Reflects domain { domain } ∅ where
  domain_eq := rfl
  hosts _ := by simp
  filed _ _ := by simp
  occupied _ := by simp

/-! ## Operations

A rule is taken from the host where it was filed, and then filed under the host that it names
now. -/

theorem getD_dropRule (m : Std.ExtTreeMap String HostRules) (host : String) (rule : ResourceId)
    (h : String) : (dropRule m host rule).getD h ∅
      = if host = h then (m.getD h ∅).erase rule else m.getD h ∅ := by
  unfold dropRule
  cases hm : m[host]? with
  | none =>
    have hnone : m.getD host ∅ = ∅ := by rw [Std.ExtTreeMap.getD_eq_getD_getElem?, hm]; rfl
    dsimp only
    split
    · next heq => rw [← heq, hnone, Std.ExtTreeMap.erase_empty]
    · rfl
  | some rules =>
    have hsome : m.getD host ∅ = rules := by rw [Std.ExtTreeMap.getD_eq_getD_getElem?, hm]; rfl
    dsimp only
    split
    · next hempty =>
      rw [Std.ExtTreeMap.getD_erase]
      simp only [Std.LawfulEqCmp.compare_eq_iff_eq]
      split
      · next heq => rw [← heq, hsome, Std.ExtTreeMap.isEmpty_iff.1 hempty]
      · rfl
    · rw [Std.ExtTreeMap.getD_insert]
      simp only [Std.LawfulEqCmp.compare_eq_iff_eq]
      split
      · next heq => rw [← heq, hsome]
      · rfl

theorem dropRule_occupied {m : Std.ExtTreeMap String HostRules} (hm : ∀ h : String, m[h]? ≠ some ∅)
    (host : String) (rule : ResourceId) (h : String) : (dropRule m host rule)[h]? ≠ some ∅ := by
  unfold dropRule
  split
  · exact hm h
  · dsimp only
    split
    · rw [Std.ExtTreeMap.getElem?_erase]
      split
      · nofun
      · exact hm h
    · next hrest =>
      rw [Std.ExtTreeMap.getElem?_insert]
      split
      · exact fun heq => hrest (Std.ExtTreeMap.isEmpty_iff.2 (Option.some.inj heq))
      · exact hm h

/-- A rule that is removed is gone; the others stay where they are. -/
theorem Reflects.remove (h : Reflects domain x m) (rule : ResourceId) :
    Reflects domain (x.remove rule).2 (m.erase rule) := by
  unfold SubsetIndex.remove
  cases hnoted : x.hosts[rule]? with
  | none =>
    -- what has no host noted is not live
    have hnone : m[rule]? = none := by simpa [hnoted] using (h.hosts rule).symm
    have hsame : m.erase rule = m := by
      refine Std.ExtTreeMap.ext_getElem? fun id => ?_
      rw [Std.ExtTreeMap.getElem?_erase]
      simp only [Std.LawfulEqCmp.compare_eq_iff_eq]
      split
      · next heq => rw [← heq, hnone]
      · rfl
    rw [hsame]
    exact h
  | some host =>
    obtain ⟨spec, hspec, hhost⟩ := Option.map_eq_some_iff.1 ((h.hosts rule).symm.trans hnoted)
    refine ⟨h.domain_eq, fun id => ?_, fun host' id => ?_, dropRule_occupied h.occupied host rule⟩
    · show (x.hosts.erase rule)[id]? = (m.erase rule)[id]?.map (hostOf domain id)
      rw [Std.ExtTreeMap.getElem?_erase, Std.ExtTreeMap.getElem?_erase, h.hosts id]
      split <;> rfl
    · show ((dropRule x.byHost host rule).getD host' ∅)[id]?
        = (m.erase rule)[id]?.bind (declaredFor domain host' id)
      rw [getD_dropRule, Std.ExtTreeMap.getElem?_erase]
      simp only [Std.LawfulEqCmp.compare_eq_iff_eq]
      by_cases hid : rule = id
      · rw [if_pos hid, Option.bind_none]
        split
        · rw [Std.ExtTreeMap.getElem?_erase]
          simp [hid]
        · next hne =>
          -- it was filed under its host alone
          rw [h.filed host' id, ← hid, hspec]
          exact if_neg fun heq => hne (hhost.symm.trans heq)
      · rw [if_neg hid, ← h.filed host' id]
        split
        · rw [Std.ExtTreeMap.getElem?_erase]
          simp [hid]
        · rfl

/-- A rule that was not live is filed under its host. -/
theorem Reflects.file (h : Reflects domain x m) (hhost : hostOf domain rule spec = host)
    (hnew : m[rule]? = none) :
    Reflects domain { x with
      hosts := x.hosts.insert rule host
      byHost := x.byHost.insert host ((x.byHost.getD host ∅).insert rule spec.subsets) }
      (m.insert rule spec) := by
  subst hhost
  refine ⟨h.domain_eq, fun id => ?_, fun host id => ?_, fun host => ?_⟩
  · show (x.hosts.insert rule _)[id]? = (m.insert rule spec)[id]?.map (hostOf domain id)
    rw [Std.ExtTreeMap.getElem?_insert, Std.ExtTreeMap.getElem?_insert, h.hosts id]
    simp only [Std.LawfulEqCmp.compare_eq_iff_eq]
    split
    · next heq => rw [← heq]; rfl
    · rfl
  · show ((x.byHost.insert _ _).getD host ∅)[id]?
      = (m.insert rule spec)[id]?.bind (declaredFor domain host id)
    rw [Std.ExtTreeMap.getD_insert, Std.ExtTreeMap.getElem?_insert]
    simp only [Std.LawfulEqCmp.compare_eq_iff_eq]
    -- at the host of the rule the other rules keep their place
    by_cases hid : rule = id
    · subst hid
      rw [if_pos rfl]
      show _ = declaredFor domain host rule spec
      unfold declaredFor
      split
      · exact Std.ExtTreeMap.getElem?_insert_self
      · rw [h.filed host rule, hnew]
        rfl
    · rw [if_neg hid, ← h.filed host id]
      split
      · next heq =>
        rw [Std.ExtTreeMap.getElem?_insert, heq]
        simp [hid]
      · rfl
  · show (x.byHost.insert _ _)[host]? ≠ some ∅
    rw [Std.ExtTreeMap.getElem?_insert]
    split
    · exact fun heq => Std.ExtTreeMap.insert_ne_empty (Option.some.inj heq)
    · exact h.occupied host

/-- A rule that is filed with these subsets under this host is live as it says, though it may spell
the host in another way. -/
theorem Reflects.insert_of_filed (h : Reflects domain x m)
    (hfiled : (x.byHost.getD (hostOf domain rule spec) ∅)[rule]? = some spec.subsets) :
    Reflects domain x (m.insert rule spec) := by
  rw [h.filed] at hfiled
  obtain ⟨old, hold, hdeclared⟩ := Option.bind_eq_some_iff.1 hfiled
  unfold declaredFor at hdeclared
  split at hdeclared
  · next hhost =>
    have hsubsets : old.subsets = spec.subsets := Option.some.inj hdeclared
    refine ⟨h.domain_eq, fun id => ?_, fun host id => ?_, h.occupied⟩
    · rw [Std.ExtTreeMap.getElem?_insert, h.hosts id]
      simp only [Std.LawfulEqCmp.compare_eq_iff_eq]
      split
      · next heq => rw [← heq, hold]; exact congrArg some hhost
      · rfl
    · rw [Std.ExtTreeMap.getElem?_insert, h.filed host id]
      simp only [Std.LawfulEqCmp.compare_eq_iff_eq]
      split
      · next heq =>
        rw [← heq, hold]
        show declaredFor domain host rule old = declaredFor domain host rule spec
        unfold declaredFor
        rw [hhost, hsubsets]
      · rfl
  · cases hdeclared

/-- **A rule that is applied** is live as it says, whatever the index had of it. -/
theorem Reflects.apply (h : Reflects domain x m) (r : TrafficRule) :
    Reflects domain (x.apply r).2 (m.apply r) := by
  unfold SubsetIndex.apply LiveRules.apply
  cases hns : r.metadata.ns with
  | none => exact h
  | some ns =>
    have hhost : Host.normalize r.spec.host ns x.domain = hostOf domain r.metadata.id r.spec := by
      rw [hostOf, Metadata.ns_id hns, h.domain_eq]
    dsimp only
    rw [hhost]
    split
    · -- the same subsets are filed at the same host, so nothing is filed anew
      next hfiled => exact h.insert_of_filed hfiled
    · have hnone : (m.erase r.metadata.id)[r.metadata.id]? = none :=
        Std.ExtTreeMap.getElem?_erase_self
      have hinsert : (m.erase r.metadata.id).insert r.metadata.id r.spec
          = m.insert r.metadata.id r.spec := by
        refine Std.ExtTreeMap.ext_getElem? fun id => ?_
        simp only [Std.ExtTreeMap.getElem?_insert, Std.ExtTreeMap.getElem?_erase]
        split <;> rfl
      -- otherwise the rule is taken out of its host and filed at the other
      rw [← hinsert]
      exact (h.remove r.metadata.id).file rfl hnone

/-- The same over a list of operations, one after another. -/
theorem Reflects.foldl {β : Type} (op : SubsetIndex → β → List ResourceId × SubsetIndex)
    {update : LiveRules → β → LiveRules}
    (hop : ∀ {x m} b, Reflects domain x m → Reflects domain (op x b).2 (update m b)) (bs : List β)
    (acc : List ResourceId × SubsetIndex) {m : LiveRules} (h : Reflects domain acc.2 m) :
    Reflects domain (bs.foldl (fun acc b => (acc.1 ++ (op acc.2 b).1, (op acc.2 b).2)) acc).2
      (bs.foldl update m) :=
  List.foldl_rel (r := fun (acc : List ResourceId × SubsetIndex) m => Reflects domain acc.2 m) h
    fun b _ _ _ hb => hop b hb

/-! ## What is answered

The rules of a host are gone through in order, and the first of each name is kept. -/

/-- What is filed under a host is what the rules declare for it. -/
theorem Reflects.getD_byHost (h : Reflects domain x m) (host : String) :
    x.byHost.getD host ∅ = m.filterMap (declaredFor domain host) := by
  refine Std.ExtTreeMap.ext_getElem? fun id => ?_
  rw [h.filed, Std.ExtTreeMap.getElem?_filterMap']

/-- The subsets that rules declare for a host, in the order of the rules. -/
def declared (domain host : String) (m : LiveRules) : List Subset :=
  m.toList.flatMap fun (rule, spec) => if hostOf domain rule spec = host then spec.subsets else []

theorem Reflects.subsets_eq (h : Reflects domain x m) (host : String) :
    x.subsets host = (declared domain host m).eraseDupsBy fun a b => a.name == b.name := by
  have hflat : (x.byHost.getD host ∅).toList.flatMap (fun r => r.2) = declared domain host m := by
    rw [h.getD_byHost, Std.ExtTreeMap.toList_filterMap, declared]
    induction m.toList with
    | nil => rfl
    | cons r rs ih =>
      obtain ⟨rule, spec⟩ := r
      simp only [List.flatMap_cons, List.filterMap_cons, ← ih]
      by_cases heq : hostOf domain rule spec = host <;> simp [declaredFor, heq]
  rw [subsets, hflat, Subset.firstOfEach_eq_eraseDupsBy]

/-- A host is noted for a rule exactly if the rule is filed under it. -/
theorem Reflects.hosts_eq_some_iff (h : Reflects domain x m) :
    x.hosts[rule]? = some host ↔ ∃ rules, x.byHost[host]? = some rules ∧ rule ∈ rules := by
  have hfiled : (∃ rules, x.byHost[host]? = some rules ∧ rule ∈ rules) ↔
      ((x.byHost.getD host ∅)[rule]?).isSome = true := by
    rw [Std.ExtTreeMap.getD_eq_getD_getElem?]
    cases x.byHost[host]? with
    | none => simp
    | some rules => simp
  rw [hfiled, h.filed, h.hosts]
  cases m[rule]? with
  | none => simp
  | some spec => simp [declaredFor]

/-- What an index holds is settled by the rules that it reflects. -/
theorem Reflects.unique (hx : Reflects domain x m) (hy : Reflects domain y m) : x = y := by
  have hhosts : x.hosts = y.hosts :=
    Std.ExtTreeMap.ext_getElem? fun id => by rw [hx.hosts, hy.hosts]
  have hbyHost : x.byHost = y.byHost := by
    refine Std.ExtTreeMap.ext_getElem? fun host => ?_
    have hgetD : x.byHost.getD host ∅ = y.byHost.getD host ∅ := by
      rw [hx.getD_byHost, hy.getD_byHost]
    rw [Std.ExtTreeMap.getD_eq_getD_getElem?, Std.ExtTreeMap.getD_eq_getD_getElem?] at hgetD
    -- a host with nothing filed is not there at all
    have hxo := hx.occupied host
    have hyo := hy.occupied host
    cases hx' : x.byHost[host]? <;> cases hy' : y.byHost[host]? <;> simp_all
  have hdomain : x.domain = y.domain := hx.domain_eq.trans hy.domain_eq.symm
  obtain ⟨_, _, _⟩ := x
  obtain ⟨_, _, _⟩ := y
  simp_all

end SubsetIndex

namespace Indexes

open SubsetIndex

/-- Handles events, one after another. -/
def handleAll (x : Indexes) (es : List Event) : Indexes :=
  es.foldl handle x

variable {x : Indexes} {m : LiveRules} {domain : String}

/-- **The index of subsets reflects the live rules after each event**, if it did before. -/
theorem reflects_handle (h : Reflects domain x.subsets.index m) (e : Event) :
    Reflects domain (x.handle e).subsets.index (m.after e) := by
  cases e with
  | limiters e => exact h
  | slices e => exact h
  | subsets e =>
    cases e with
    | apply r => exact h.apply r
    | delete id =>
      show Reflects domain (x.subsets.index.delete id).2 (m.erase id)
      exact h.remove id
    | reset live removed =>
      have hlive := Reflects.foldl SubsetIndex.apply (fun r hm => hm.apply r) live
        ([], x.subsets.index) h
      exact Reflects.foldl SubsetIndex.delete (fun id hm => hm.remove id) removed.ids _ hlive

theorem reflects_handleAll (h : Reflects domain x.subsets.index m) (es : List Event) :
    Reflects domain (x.handleAll es).subsets.index (es.foldl LiveRules.after m) := by
  induction es generalizing x m with
  | nil => exact h
  | cons e es ih => exact ih (reflects_handle h e)

/-- The index of subsets after some events, if it was empty before. -/
def subsetsAfter (domain : String) (specCapacity metricCapacity : Nat) (es : List Event) :
    SubsetIndex :=
  ((empty domain specCapacity metricCapacity).handleAll es).subsets.index

/-- **The index of subsets reflects the live rules only.** After any events, the subsets of a host
are those that the live rules with this host declare, in the order of the rules, without any whose
name was met before. The host noted for a rule is the one that the rule is filed under, and no host
has nothing filed under it. Other events with the same live rules in the end lead to the same
index. -/
theorem subsets_reflect_rules (domain : String) (specCapacity metricCapacity : Nat)
    (es : List Event) :
    let x := subsetsAfter domain specCapacity metricCapacity es
    let live := LiveRules.afterAll es
    (∀ host, x.subsets host = (declared domain host live).eraseDupsBy fun a b => a.name == b.name) ∧
    (∀ (rule : ResourceId) (host : String), x.hosts[rule]? = some host ↔
      ∃ rules, x.byHost[host]? = some rules ∧ rule ∈ rules) ∧
    (∀ host : String, x.byHost[host]? ≠ some ∅) ∧
    ∀ es', LiveRules.afterAll es' = live →
      subsetsAfter domain specCapacity metricCapacity es' = x := by
  have hreflects : ∀ es, Reflects domain (subsetsAfter domain specCapacity metricCapacity es)
      (LiveRules.afterAll es) := reflects_handleAll (reflects_empty domain)
  have h := hreflects es
  refine ⟨h.subsets_eq, fun rule host => h.hosts_eq_some_iff, h.occupied, fun es' hlive => ?_⟩
  have h' := hreflects es'
  rw [hlive] at h'
  exact h'.unique h

/-- A rule that came to `reviews` from another host, before a second rule of `reviews` or after it:
either way the first rule's subset `v1` is the one that is kept. -/
theorem subsets_reflect_movedRule :
    let a (host : String) : IndexEvent TrafficRule := .apply
      { metadata := { ns := some "web", name := some "a" },
          spec := { host, subsets := [⟨"v1", ∅⟩] } }
    let b : IndexEvent TrafficRule := .apply
      { metadata := { ns := some "web", name := some "b" }
        spec := { host := "reviews", subsets := [⟨"v1", {("app", "b")}⟩, ⟨"v2", ∅⟩] } }
    let early := [b, a "ratings", a "reviews"].map Event.subsets
    let late := [a "ratings", a "reviews", b].map Event.subsets
    LiveRules.afterAll early = LiveRules.afterAll late ∧
      subsetsAfter "cluster.local" 4 4 early = subsetsAfter "cluster.local" 4 4 late ∧
      (subsetsAfter "cluster.local" 4 4 early).subsets "reviews.web.svc.cluster.local"
        = [⟨"v1", ∅⟩, ⟨"v2", ∅⟩] := by
  intro a b early late
  have hlive : LiveRules.afterAll early = LiveRules.afterAll late := by decide
  exact ⟨hlive, (subsets_reflect_rules "cluster.local" 4 4 late).2.2.2 early
    hlive, by decide +kernel⟩

end Indexes

end MeshLimiter
