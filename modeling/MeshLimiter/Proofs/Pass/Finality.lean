import MeshLimiter.Proofs.Pass.Deletion
import MeshLimiter.Proofs.Pass.Quiescence
/-!
# A deletion is final

A limiter is deleted while a pass over its metrics may be under way, wherever that is. Once both
have ended, nothing of the limiter is left: it is of no interest, it has no entry, nothing is noted
of it, and the registry has no entry of it.

* **`Pass.rules`**: what the two sides of a limiter may do, and what others may do beside them;
* **`Pass.respect_rules`**: the sides keep their invariant as they pass over the limiter and delete
  it;
* **`Pass.delete_final`**: a deletion is final, for all ways in which the sides may take turns.
-/

namespace MeshLimiter

open Interleaving

namespace Pass

variable {R : Answering} {s : Settings} {id : ResourceId}

/-! ## What may happen

The side of changes makes passes and deletions, the side of metrics makes passes. What others do
leaves the limiter alone. -/

/-- What a side may begin on. -/
def Begins (s : Settings) (id : ResourceId) : Side → Program (Except PassError Unit) → Prop
  | .changes, p => (∃ l, keyOf l = .ok id ∧ p = (reconcile s l).run) ∨ p = (delete s id).run
  | .metrics, p => ∃ l, (keyOf l = .ok id ∧ p = (refresh s l).run) ∨ p = (sync s id l).run

/-- What the passes over other limiters may do: they leave this one alone, and bring no entry of it
into the registry, which they write only under its lock. -/
structure Elsewhere (s : Settings) (id : ResourceId) (σ : Shared Side Unit) (w : World) : Prop where
  placed : σ.world.held.Placed → w.held.Placed
  interest : w.held.interest.contains id = σ.world.held.interest.contains id
  entry : w.held.store.find? id = σ.world.held.store.find? id
  applied : w.held.applied[id]? = σ.world.held.applied[id]?
  written : w.held.written[id]? = σ.world.held.written[id]?
  registry : w.held.configMaps[s.registry]? = σ.world.held.configMaps[s.registry]? ∨
    σ.owner .registry = none ∧ (Registry.FreeOf s id σ.world.held.configMaps[s.registry]? →
      Registry.FreeOf s id w.held.configMaps[s.registry]?)

/-- The rules while `begins` tells which of the sides may begin on something. -/
def rules (R : Answering) (s : Settings) (id : ResourceId) (begins : Side → Prop) :
    Rules Side Unit (Except PassError Unit) where
  answers := R
  begins t _ w p w' := begins t ∧ Begins s id t p ∧ w' = w
  outside := Elsewhere s id

/-- What passes over other limiters do leaves the invariant alone. -/
theorem Together.elsewhere {σ : Shared Side Unit} {ph : Side → Phase} {w : World}
    (h : Together s id σ ph) (hw : Elsewhere s id σ w) : Together s id { σ with world := w } ph :=
  ⟨hw.placed h.1, h.2.elsewhere hw.interest hw.entry hw.applied hw.written hw.registry⟩

/-- Two sides that have not begun on anything. -/
theorem together_idle {σ : Shared Side Unit} (hplaced : σ.world.held.Placed) :
    Together s id σ fun _ => .outside where
  left := hplaced
  right :=
    { changesLock := nofun
      metricsLock := nofun
      wanted := nofun
      unwanted := nofun
      stays := nofun
      kept := rfl
      current := nofun
      bounded := trivial }

/-- A side has ended, and so has a deletion that it may have made. -/
def AtRest (φ : Phase) : Prop :=
  φ = .outside ∨ φ = .gone .free

/-- What a side begins on keeps the invariant. -/
theorem Begins.keeps (hR : R.Sound) {t : Side} {p : Program (Except PassError Unit)}
    (hp : Begins s id t p) : p.Keeps R (Together s id) t (fun _ => AtRest) .outside := by
  cases t with
  | changes =>
    rcases hp with ⟨l, hkey, rfl⟩ | rfl
    · exact (keeps_passing hR (follows_reconcile hkey)).mono fun _ _ => .inl
    · exact (keeps_delete hR).mono fun _ _ h => h.symm.imp And.right And.right
  | metrics =>
    obtain ⟨l, ⟨hkey, rfl⟩ | rfl⟩ := hp
    · exact (keeps_passing hR (follows_refresh hkey)).mono fun _ _ => .inl
    · have hsync : (sync s id l).run.Follows (Leads s id .metrics) (fun _ => Passed)
          (some .entering) :=
        (follows_sync .metrics l).mono fun _ _ => .inl
      exact (keeps_passing hR hsync).mono fun _ _ => .inl

/-- A side that has ended is ready for another program. -/
theorem Together.ready {σ : Shared Side Unit} {ph : Side → Phase} {t : Side}
    (h : Together s id σ ph)
    (ht : AtRest (ph t)) : Together s id σ (Function.update ph t .outside) := by
  rcases ht with hφ | hφ
  · rw [← hφ, Function.update_eq_self]
    exact h
  · have htied := h.2
    cases t with
    | changes =>
      rw [hφ] at htied
      exact update_changes.2 ⟨h.1, htied.deletion_outside fun _ => rfl⟩
    | metrics =>
      rw [hφ] at htied
      exact absurd htied.kept nofun

/-- The sides that may begin on something come to rest in between. -/
theorem respect_rules (hR : R.Sound) {begins : Side → Prop}
    {post : Side → Except PassError Unit → Phase → Prop}
    (hpost : ∀ t, begins t → post t = fun _ => AtRest) :
    (rules R s id begins).Respect (Together s id) post where
  begins := by
    rintro t note σ ph y p w h hy ⟨ht, hp, rfl⟩
    rw [hpost t ht] at hy ⊢
    exact ⟨.outside, h.ready hy, hp.keeps hR⟩
  outside _ _ _ h hw := h.elsewhere hw

/-- Where the sides come to: the one that takes its changes ends its deletion, the other its
passes. -/
def endOf : Side → Except PassError Unit → Phase → Prop
  | .changes => Ended
  | .metrics => fun _ => AtRest

/-- **A deletion is final.** Let the sides pass over a limiter in any way, and let the one that
takes its changes begin to delete it while the other may be anywhere in a pass, and may begin on
further ones. If the deletion succeeds, then once both have ended the limiter is of no interest, has
no entry, has nothing noted of it, and has no entry in the registry. -/
theorem delete_final (hR : R.Sound) {x₀ x₁ x₂ : Parties Side Unit (Except PassError Unit)}
    (hplaced : x₀.shared.world.held.Placed) (hidle : ∀ t, ∃ y, x₀.left t = .done y)
    (before : Reaches (rules R s id fun _ => True) x₀ x₁)
    (hready : ∃ y, x₁.left .changes = .done y)
    (during : Reaches (rules R s id (· = .metrics)) (x₁.begun .changes () (delete s id).run) x₂)
    (hdeleted : x₂.left .changes = .done (.ok ())) (hended : ∃ y, x₂.left .metrics = .done y) :
    let held := x₂.shared.world.held
    held.interest.contains id = false ∧ held.store.find? id = none ∧ held.applied[id]? = none ∧
      held.written[id]? = none ∧ Registry.FreeOf s id held.configMaps[s.registry]? := by
  have hstart : Kept (rules R s id fun _ => True) (Together s id) (fun _ _ => AtRest) x₀ := by
    refine ⟨fun _ => .outside, together_idle hplaced, fun t => ?_⟩
    obtain ⟨y, hy⟩ := hidle t
    rw [hy]
    exact .inl rfl
  obtain ⟨ph₁, htogether₁, hkeeps₁⟩ := before.kept (respect_rules hR fun _ _ => rfl) hstart
  -- from here on, that side does nothing but delete
  have hbegun : Kept (rules R s id (· = .metrics)) (Together s id) endOf
      (x₁.begun .changes () (delete s id).run) := by
    obtain ⟨y, hy⟩ := hready
    have hrest := hkeeps₁ .changes
    rw [hy] at hrest
    refine ⟨Function.update ph₁ .changes .outside, htogether₁.ready hrest, fun t => ?_⟩
    cases t with
    | changes => exact keeps_delete hR
    | metrics => exact hkeeps₁ .metrics
  obtain ⟨ph₂, htogether₂, hkeeps₂⟩ :=
    during.kept (respect_rules hR fun t ht => by rw [show t = .metrics from ht]; rfl) hbegun
  have htied := htogether₂.2
  have hchanges : ph₂ .changes = .gone .free := by
    have hend := hkeeps₂ .changes
    rw [hdeleted] at hend
    rcases hend with ⟨-, hφ⟩ | ⟨⟨e, he⟩, -⟩
    · exact hφ
    · cases he
  have hmetrics : ph₂ .metrics = .outside := by
    obtain ⟨y, hy⟩ := hended
    have hend := hkeeps₂ .metrics
    rw [hy] at hend
    refine Or.resolve_right hend fun hφ => ?_
    rw [hφ] at htied
    exact absurd htied.kept nofun
  rw [hchanges, hmetrics] at htied
  obtain ⟨hentry, ⟨happlied, hwritten⟩, hregistry⟩ := htied.bounded
  refine ⟨htied.unwanted rfl, ?_, happlied, hwritten, hregistry⟩
  -- an entry would be one that the other side has yet to take out
  exact Option.eq_none_iff_forall_ne_some.2 fun e he => nomatch hentry e he

/-- A pass over the metrics of the reviews has made an entry and waits for its lock. -/
def waitingPass : Parties Side Unit (Except PassError Unit) :=
  (Parties.begun { shared := ⟨worldOfTwo, fun _ => none, []⟩, left := fun _ => .done (.ok ()) }
    .metrics () (sync noMetrics reviews (reviewsLimiter 1 [("v1", "1")])).run).turns [.metrics]

/-- The reviews are deleted. The deletion gets the lock first, so that the pass finds nothing to
do. -/
def deletedBeside : Parties Side Unit (Except PassError Unit) :=
  (waitingPass.begun .changes () (delete noMetrics reviews).run).turns
    (List.replicate 3 .changes ++ [.metrics] ++ List.replicate 2 .changes ++
      List.replicate 4 .metrics ++ List.replicate 10 .changes)

/-- The registry had an entry of the reviews, and the pass had made one in the store. -/
theorem delete_final_waitingPass :
    (registryOfTwo.descriptors.any (·.belongsTo reviews) = true ∧
      (waitingPass.shared.world.held.store.find? reviews).isSome = true) ∧
    let held := deletedBeside.shared.world.held
    held.interest.contains reviews = false ∧ held.store.find? reviews = none ∧
      held.applied[reviews]? = none ∧ held.written[reviews]? = none ∧
      Registry.FreeOf noMetrics reviews held.configMaps[noMetrics.registry]? := by
  refine ⟨by decide +kernel, ?_⟩
  have hplaced : worldOfTwo.held.Placed :=
    World.placed_insert (h := { worldOfTwo.held with configMaps := ∅ })
      (fun p m hm => nomatch Std.ExtTreeMap.getElem?_empty.symm.trans hm) textsOfTwo
  have hperform : ∀ begins w a, (rules World.Answers noMetrics reviews begins).answers w a
      (w.perform a).1 (w.perform a).2 := fun _ => World.answers_perform
  have before : Reaches (rules World.Answers noMetrics reviews fun _ => True)
      ⟨⟨worldOfTwo, fun _ => none, []⟩, fun _ => .done (.ok ())⟩ waitingPass := by
    refine (Parties.reaches_begun rfl ?_).trans (Parties.reaches_turns (hperform _) _ _)
    exact ⟨trivial, ⟨_, .inr rfl⟩, rfl⟩
  have during : Reaches (rules World.Answers noMetrics reviews (· = .metrics))
      (waitingPass.begun .changes () (delete noMetrics reviews).run) deletedBeside :=
    Parties.reaches_turns (hperform _) _ _
  -- both come to an end; the registry is read by what is known of its text
  have hended : (succeeded (deletedBeside.left .changes) && succeeded (deletedBeside.left .metrics))
      = true := by
    rw [deletedBeside, delete, Registry.merge, Registry.ofConfigMap?_eq_of_read read_textsOfTwo]
    decide +kernel
  obtain ⟨hchanges, hmetrics⟩ := Bool.and_eq_true_iff.1 hended
  exact delete_final sound_answers hplaced (fun _ => ⟨_, rfl⟩) before ⟨_, rfl⟩ during
    (eq_done_of_succeeded hchanges) ⟨_, eq_done_of_succeeded hmetrics⟩

end Pass

end MeshLimiter
