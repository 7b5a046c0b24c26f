import Mathlib.Data.Set.Insert
import MeshLimiter.Proofs.Pass.Commands
import MeshLimiter.Proofs.Pass.History
/-!
# The filters that passes ask for

A pass asks for the filters of its limiter only, each of them that of one of its subsets, whatever
it is answered and whatever happens beside it. The names of filters tell limiters and subsets apart,
so what is done for two limiters, or for two subsets of one, never meets in a filter.

* **`Pass.KeepsTo`**: commands that ask for no filters but those of some subsets of a limiter;
* **`Pass.Task`**, **`Pass.Task.takes`**: what is done for a limiter keeps to its filters;
* **`Pass.filters_told_apart`**: no two limiters share a filter, and no two subsets of one.
-/

namespace MeshLimiter.Pass

open Program (Runs)

variable {s : Settings} {id : ResourceId} {l : Limiter} {S : Set String}

/-- Commands that ask for no filters but those of some subsets of a limiter. -/
def KeepsTo (id : ResourceId) (S : Set String) : Command → Prop
  | .step (.call c) => ∀ place, c.concern = .filter place →
      ∃ subset ∈ S, place = filterPlace id subset
  | _ => True

/-- To look asks for no filter. -/
theorem keepsTo_of_isLook {a : Step} (h : a.isLook = true) : KeepsTo id S (.step a) := by
  cases a with
  | call => cases h
  | _ => trivial

/-- Only a call asks for anything, so it matters what its calls are about. -/
theorem keepsTo_of_concern {k : ClusterCall.Concern} {c : Command}
    (hcall : ∀ a, c = .step (.call a) → a.concern = k)
    (hk : ∀ place, k = .filter place → ∃ subset ∈ S, place = filterPlace id subset) :
    KeepsTo id S c := by
  cases c with
  | step a =>
    cases a with
    | call a => exact fun place hplace => hk place ((hcall a rfl).symm.trans hplace)
    | _ => trivial
  | _ => trivial

/-- The application of the filter of a subset asks for that filter. -/
theorem keepsTo_of_calls {subset : String} (hsubset : subset ∈ S) {c : Command}
    (h : c.Calls (.filter (filterPlace id subset))) : KeepsTo id S c := by
  refine keepsTo_of_concern (k := .filter (filterPlace id subset)) ?_ ?_
  · rintro a rfl
    exact h
  · rintro place ⟨⟩
    exact ⟨subset, hsubset, rfl⟩

/-- A merge asks for the registry. -/
theorem keepsTo_of_merges {c : Command} (h : Registry.Merges c) : KeepsTo id S c := by
  refine keepsTo_of_concern (k := .registry) ?_ fun _ => nofun
  rintro a rfl
  exact h

/-- A collection asks for the service and its pods. -/
theorem keepsTo_of_asks {e : EntryId} {c : Command} (h : Collected.Asks e c) : KeepsTo id S c := by
  refine keepsTo_of_concern (k := .service) ?_ fun _ => nofun
  rintro a rfl
  exact Collected.concern_of_asks h

/-- What is brought about asks for filters of the limiter alone. -/
theorem BringsAbout.keepsTo {c : Command} (h : BringsAbout id l c) : KeepsTo id .univ c := by
  cases h with
  | merges h => exact keepsTo_of_merges h
  | filter subset h => exact keepsTo_of_calls (Set.mem_univ subset) h
  | patchStatus => exact fun _ => nofun
  | findWritten | setWritten | setApplied => trivial

/-- So does a whole pass. -/
theorem OfSync.keepsTo {c : Command} (h : OfSync id l c) : KeepsTo id .univ c := by
  cases h with
  | asks h => exact keepsTo_of_asks h
  | bringsAbout h => exact h.keepsTo
  | _ => trivial

/-- A deletion asks for none. -/
theorem OfDelete.keepsTo {c : Command} (h : OfDelete id c) : KeepsTo id .univ c := by
  cases h with
  | merges h => exact keepsTo_of_merges h
  | _ => trivial

/-- What is done for a limiter, and the subsets that it is done for: a pass is made for all of them,
and in it the filter of each is applied. -/
inductive Task (s : Settings) (id : ResourceId) : Set String → Attempt PassError Unit → Prop where
  | reconcile {l : Limiter} (key : keyOf l = .ok id) : Task s id .univ (reconcile s l)
  | refresh {l : Limiter} (key : keyOf l = .ok id) : Task s id .univ (refresh s l)
  | delete : Task s id .univ (delete s id)
  | apply (l : Limiter) (subset : String) (spec : Option FilterSpec) :
    Task s id {subset} (ProxyFilter.apply id l subset spec)

/-- **What is done for a limiter asks for its filters only.** -/
theorem Task.takes {p : Attempt PassError Unit} (h : Task s id S p) :
    p.run.Takes (KeepsTo id S) := by
  cases h with
  | reconcile key =>
    exact takes_reconcile_of (fun _ => keepsTo_of_isLook) trivial
      ((takes_sync s id _).mono fun _ => OfSync.keepsTo) key
  | refresh key => exact (takes_refresh s key).mono fun _ => OfSync.keepsTo
  | delete => exact (takes_delete s id).mono fun _ => OfDelete.keepsTo
  | apply l subset spec =>
    exact (ProxyFilter.takes_apply id l subset spec).mono fun _ =>
      keepsTo_of_calls (Set.mem_singleton subset)

/-- A filter that is not one of those is not asked for. -/
theorem Task.about_eq_nil {R : Answering} {p : Attempt PassError Unit} {w w' : World} {tr : Trace}
    {y : Except PassError Unit} (h : Task s id S p) (hrun : Runs R p.run w tr y w')
    {place : ResourceId}
    (hplace : ∀ subset ∈ S, place ≠ filterPlace id subset) : tr.about (.filter place) = [] :=
  hrun.about_eq_nil h.takes fun c hc hasked => by
    obtain ⟨subset, hsubset, rfl⟩ := hc place hasked
    exact hplace subset hsubset rfl

/-- **Two limiters never share a filter**, and neither do two subsets of one. In a namespace, the
name of a filter tells the limiter and the subset, if the names of limiters have no dot. So of what
is done for two limiters, or for different subsets of one, no two ever read, write or delete the
same filter, however they are answered and whatever else happens meanwhile. -/
theorem filters_told_apart {id id' : ResourceId} (hname : '.' ∉ id.name.toList)
    (hname' : '.' ∉ id'.name.toList) :
    (id.ns = id'.ns → ∀ subset subset', filterName id subset = filterName id' subset' →
      id = id' ∧ subset = subset') ∧
    ∀ {s s' : Settings} {S S' : Set String} {p p' : Attempt PassError Unit},
      Task s id S p → Task s' id' S' p' → (id ≠ id' ∨ ∀ subset ∈ S, subset ∉ S') →
      ∀ {R R' : Answering} {w v w' v' : World} {tr tr' : Trace} {y y' : Except PassError Unit},
      Runs R p.run w tr y v → Runs R' p'.run w' tr' y' v' →
      ∀ place, tr.about (.filter place) = [] ∨ tr'.about (.filter place) = [] := by
  constructor
  · exact fun hns subset subset' h => (filterName_inj hname hname' hns).1 h
  intro s s' S S' p p' htask htask' hapart R R' w v w' v' tr tr' y y' hrun hrun' place
  by_cases hplace : ∃ subset ∈ S, place = filterPlace id subset
  · -- a filter of the first limiter is none of the second
    obtain ⟨subset, hsubset, rfl⟩ := hplace
    refine .inr (htask'.about_eq_nil hrun' fun subset' hsubset' heq => ?_)
    obtain ⟨hid, rfl⟩ := (filterPlace_inj hname hname').1 heq
    rcases hapart with hne | hdisjoint
    · exact hne hid
    · exact hdisjoint _ hsubset hsubset'
  · exact .inl (htask.about_eq_nil hrun fun subset hsubset heq => hplace ⟨subset, hsubset, heq⟩)

/-- A limiter called like a subset of another. The pass over the other asks for the filter of that
subset, and what is done for the limiter does not; the filters of two subsets of the other are told
apart as well. -/
theorem filters_told_apart_calledLikeSubset :
    let named : ResourceId := { reviews with name := "v1" }
    let w := reviewsWorld []
    let l := reviewsLimiter 1 [("v1", "1")]
    let p := (reconcile noMetrics l).run.traceAlone w
    let q (id : ResourceId) (subset : String) :=
      (ProxyFilter.apply id l subset none).run.traceAlone w
    let first := ClusterCall.Concern.filter (filterPlace reviews "v1")
    p.about first ≠ [] ∧ (q named Subset.baseName).about first = [] ∧
      (q reviews "v1").about first ≠ [] ∧ (q reviews "v2").about first = [] := by
  intro named w l p q first
  have hname : '.' ∉ reviews.name.toList := by decide
  have hname' : '.' ∉ named.name.toList := by decide
  -- both ask for the filter, so whoever is told apart from them does not
  have hpass : p.about first ≠ [] := List.isEmpty_eq_false_iff.1 (by decide +kernel)
  have happly : (q reviews "v1").about first ≠ [] := List.isEmpty_eq_false_iff.1 (by decide +kernel)
  have hruns : ∀ p : Attempt PassError Unit, Runs World.Answers p.run w (p.run.traceAlone w)
      (p.run.runAlone w).1 (p.run.runAlone w).2 := fun p => Program.runs_answers_runAlone p.run w
  refine ⟨hpass, ?_, happly, ?_⟩
  · obtain ⟨-, hapart⟩ := filters_told_apart hname hname'
    exact (hapart (.reconcile (s := noMetrics) (l := l) rfl)
      (.apply (s := noMetrics) l Subset.baseName none)
      (.inl (by decide)) (hruns _) (hruns _) (filterPlace reviews "v1")).resolve_left hpass
  · obtain ⟨-, hapart⟩ := filters_told_apart hname hname
    have hdisjoint : ∀ subset ∈ ({"v1"} : Set String), subset ∉ ({"v2"} : Set String) := by
      rintro subset rfl
      exact (by decide : "v1" ≠ "v2")
    exact (hapart (.apply (s := noMetrics) l "v1" none) (.apply (s := noMetrics) l "v2" none)
      (.inr hdisjoint) (hruns _) (hruns _) (filterPlace reviews "v1")).resolve_left happly

end MeshLimiter.Pass
