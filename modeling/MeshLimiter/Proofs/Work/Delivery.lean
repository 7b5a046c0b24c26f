import MeshLimiter.Proofs.Pass.History
import MeshLimiter.Proofs.Work.Desk
import MeshLimiter.Work.Schedule
/-!
# No change of a limiter is lost

A watch takes limiters into the index and pushes their keys. Workers take keys, look them up in the
index, and make the pass for what they find. A change that comes in between marks the key, so that
it is taken again: once no key waits and none is worked on, every limiter was last processed as it
is now.

* **`Delivery.Tidy`**: the invariant of the watch and the workers;
* **`Delivery.keeps_changes`**, **`Delivery.keeps_publishAll`**: a worker and the watch keep it;
* **`Delivery.no_change_lost`**: nothing is lost, for all ways in which they may take turns.
-/

namespace MeshLimiter

open Interleaving
open LimiterIndex (Alike Published)

namespace Delivery

/-! ## The parties

The watch and the workers are hands; each begins on one program after another, and the steps of all
may come in any order. -/

/-- Pushes keys on the spec queue, in order. -/
def publishAll : List ResourceId → Program RoundResult
  | [] => return .ok ()
  | id :: ids => do
    let _ : Queue.PushOutcome ← Program.step (.push .spec id)
    publishAll ids

/-- What a party may begin on. The watch takes an event into the index before it pushes what that
publishes. -/
inductive Begins (s : Settings) :
    Hand → Option (IndexEvent Limiter) → World → Program RoundResult → World → Prop where
  | work (n : Nat) (w : World) : Begins s (.worker n) none w (Round.changes s) w
  | again (n : Nat) (w : World) (time : Nat) (id : ResourceId) :
    Begins s (.retry n) none w (Round.retry time id) w
  | handle (e : IndexEvent Limiter) (w : World) :
    Begins s .watch (some e) w (publishAll (w.indexes.publish (.limiters e)).1)
      { w with indexes := (w.indexes.publish (.limiters e)).2.2 }

def rules (s : Settings) : Rules Hand (Option (IndexEvent Limiter)) RoundResult where
  answers := World.Serves
  begins := Begins s
  outside σ w := w.desk = σ.world.desk

/-- With nothing in between, the watch handles an event as the indexes do. -/
theorem runAlone_publishAll (ids : List ResourceId) (w : World) :
    (publishAll ids).runAlone w = (.ok (), { w with indexes :=
      { w.indexes with specQueue := w.indexes.specQueue.pushAll ids } }) := by
  induction ids generalizing w with
  | nil => rfl
  | cons id ids ih => exact ih (w.perform (.push .spec id)).2

/-- Pushing what was published leaves the indexes as they are. -/
theorem indexes_publishAll (w : World) (e : IndexEvent Limiter) :
    ((publishAll (w.indexes.publish (.limiters e)).1).runAlone
      { w with indexes := (w.indexes.publish (.limiters e)).2.2 }).2.indexes
      = w.indexes.handle (.limiters e) := by
  rw [runAlone_publishAll]
  rfl

/-! ## What they do leaves the desk tidy

Each step of a hand leaves the desk tidy, and moves the hand to another phase. So does a program,
whatever it is answered. -/

/-- The invariant of the parties. -/
def AllTidy (σ : Shared Hand (Option (IndexEvent Limiter))) (ph : Hand → Phase) : Prop :=
  Tidy σ.world.desk σ.past ph

variable {σ σ' : Shared Hand (Option (IndexEvent Limiter))} {ph : Hand → Phase}
  {t : Hand} {φ : Phase}

/-- What does not touch the desk leaves it tidy. -/
theorem allTidy_offDesk {c : Command} {r : c.Reply} (hc : Pass.OffDesk c) (h : AllTidy σ ph)
    (hp : Performs World.Serves t σ c r σ') : AllTidy σ' ph := by
  cases hp with
  | @step a r w answer =>
    have hdesk : w.desk = σ.world.desk := answer.desk_eq hc
    show Tidy w.desk (.did t ⟨a, r⟩ :: σ.past) ph
    rw [hdesk]
    refine h.aside (aside_did ?_ ?_)
    · rintro id rfl
      cases hc
    · rintro id rfl
      cases hc
  | acquire | release | await | sleepUntil | retryAfter => exact h

/-- A program that is not about the desk leaves hand and desk as they are. -/
theorem keeps_offDesk {α : Type} {p : Program α} (hp : p.Takes Pass.OffDesk) :
    p.Keeps World.Serves AllTidy t (fun _ φ' => φ' = φ) φ :=
  hp.keeps (fun _ _ _ _ _ hc h _ => allTidy_offDesk hc h) fun _ => rfl

/-- A worker has nothing to do, or has pushed all that it was to push. -/
def AtRest (_ : RoundResult) (φ : Phase) : Prop :=
  φ = .owing []

/-- The pass for a key that was taken. -/
theorem keeps_passFor (s : Settings) (id : ResourceId) :
    (Round.passFor s id).run.Keeps World.Serves AllTidy t (fun _ φ => ∃ found, φ = .busy id found)
      (.taken id) := by
  refine Attempt.keeps_lift_bind (Program.keeps_command
    fun σ ph (found : Option Limiter) σ' h hφ hp => ⟨.busy id found, ?_, ?_⟩)
  · -- what was found is what the pass is for
    obtain ⟨w, answer, rfl⟩ := performs_step.1 hp
    obtain ⟨rfl, hdesk⟩ := answer.findLimiter
    show Tidy w.desk _ _
    rw [hdesk]
    exact h.looked hφ
  · have hpass : ∀ p : Attempt PassError Unit, p.run.Takes Pass.OffDesk → p.run.Keeps World.Serves
        AllTidy t (fun _ φ => ∃ found, φ = .busy id found) (.busy id found) :=
      fun p hp => (keeps_offDesk hp).mono fun _ φ hφ => ⟨found, hφ⟩
    cases found with
    | some l => exact hpass _ (Pass.takes_reconcile s l)
    | none => exact hpass _ ((Pass.takes_delete s id).mono fun _ h => h.forgets.offDesk)

/-- **A round of a worker leaves the desk tidy.** -/
theorem keeps_changes (s : Settings) :
    (Round.changes s).Keeps World.Serves AllTidy t AtRest (.owing []) := by
  refine Program.Keeps.bind (Program.keeps_command
    fun σ ph (taken : Option ResourceId) σ' h hφ hp => ?_)
  obtain ⟨w, answer, rfl⟩ := performs_step.1 hp
  obtain ⟨htaken, hdesk⟩ := answer.tryPop
  have haside : Aside (.did t ⟨.tryPop .spec, taken⟩) := aside_did nofun nofun
  cases taken with
  | none =>
    refine ⟨.owing [], ?_, keeps_offDesk ⟨trivial, fun _ => trivial⟩⟩
    rw [← hφ, Function.update_eq_self]
    show Tidy w.desk _ _
    rw [hdesk, Queue.tryPop_of_none htaken.symm]
    exact h.aside haside
  | some id =>
    refine ⟨.taken id, ?_, ?_⟩
    · show Tidy w.desk _ _
      rw [hdesk]
      exact (h.taken hφ htaken.symm).aside haside
    · refine Program.Keeps.bind ((keeps_passFor s id).mono fun result φ hφ => ?_)
      obtain ⟨found, rfl⟩ := hφ
      refine Program.Keeps.bind (Program.keeps_command
        fun σ ph (requeued : Bool) σ' h hφ hp => ⟨.owing [], ?_, ?_⟩)
      · obtain ⟨w, answer, rfl⟩ := performs_step.1 hp
        show Tidy w.desk _ _
        rw [answer.finish]
        exact h.finished hφ requeued
      · -- what comes after is of no matter for the desk
        cases result with
        | ok => exact keeps_offDesk ⟨rfl, fun _ => trivial⟩
        | error => exact keeps_offDesk ⟨rfl, fun _ => ⟨trivial, fun _ => trivial⟩⟩

/-- A key is pushed again after a failure. -/
theorem keeps_retry (time : Nat) (id : ResourceId) :
    (Round.retry time id).Keeps World.Serves AllTidy t AtRest (.owing []) := by
  refine Program.Keeps.bind (Program.Keeps.mono (keeps_offDesk ⟨trivial, fun _ => trivial⟩)
    fun _ φ hφ => ?_)
  subst hφ
  refine Program.Keeps.bind (Program.keeps_command
    fun σ ph (outcome : Queue.PushOutcome) σ' h hφ hp => ⟨.owing [], ?_, rfl⟩)
  obtain ⟨w, answer, rfl⟩ := performs_step.1 hp
  rw [← hφ, Function.update_eq_self]
  show Tidy w.desk _ _
  rw [answer.push.2]
  exact (h.pushed id).aside (aside_did nofun nofun)

/-- **The watch leaves the desk tidy** as it pushes what an event has published. -/
theorem keeps_publishAll (ids : List ResourceId) :
    (publishAll ids).Keeps World.Serves AllTidy .watch AtRest (.owing ids) := by
  -- along the keys: those that are left are owed
  induction ids with
  | nil => exact rfl
  | cons id ids ih =>
    refine Program.Keeps.bind (Program.keeps_command
      fun σ ph (outcome : Queue.PushOutcome) σ' h hφ hp => ⟨.owing ids, ?_, ih⟩)
    obtain ⟨w, answer, rfl⟩ := performs_step.1 hp
    obtain ⟨rfl, hdesk⟩ := answer.push
    show Tidy w.desk _ _
    rw [hdesk]
    have haside : ∀ outcome : Queue.PushOutcome, Aside (.did .watch ⟨.push .spec id, outcome⟩) :=
      fun _ => aside_did nofun nofun
    refine ((h.pushed id).aside (haside _)).settled hφ fun hnone => Queue.due_push ?_
    simpa [refused] using hnone _ List.mem_cons_self

theorem respect_rules (s : Settings) : (rules s).Respect AllTidy fun _ => AtRest where
  begins := by
    intro t note σ ph y p w h hy begins
    -- a hand at rest begins, which is nothing in itself
    have hstart : ∀ t', AllTidy (σ.started t' none σ.world) (Function.update ph t (.owing [])) := by
      intro t'
      rw [← (show ph t = .owing [] from hy), Function.update_eq_self]
      exact h.aside aside_began
    cases begins with
    | work n => exact ⟨.owing [], hstart _, keeps_changes s⟩
    | again n _ time id => exact ⟨.owing [], hstart _, keeps_retry time id⟩
    | handle e =>
      exact ⟨_, h.published hy (Indexes.published_publish σ.world.indexes e), keeps_publishAll _⟩
  outside := by
    intro σ ph w h hw
    show Tidy w.desk _ _
    rw [show w.desk = σ.world.desk from hw]
    exact h

/-! ## Nothing is lost

At the end of all work the only way left in which a limiter is accounted for is that it was
processed as it is. -/

variable {s : Settings} {x y : Parties Hand (Option (IndexEvent Limiter)) RoundResult}

/-- **No change of a limiter is lost.** Let a watch and any number of workers start at a new desk.
If the watch was never refused a push and has pushed all that it was to push, and if no key waits
and none is worked on, then of every limiter that was ever applied or deleted, the version processed
last asks for the same as the one in the index, or was a deletion and there is none. And when only
the status of a limiter in the index changes, nothing is published, and the spec queue stays as it
is. -/
theorem no_change_lost {capacity : Nat}
    (hdesk : x.shared.world.desk = { limiters := {}, queue := .ofCapacity capacity })
    (hpast : x.shared.past = []) (hidle : ∀ t, ∃ r, x.left t = .done r)
    (h : Reaches (rules s) x y) :
    (NoneRefused y.shared.past → (∃ r, y.left .watch = .done r) →
      y.shared.world.desk.queue.queued = ∅ → y.shared.world.desk.queue.active = ∅ →
      ∀ id, Touched id y.shared.past → ∃ version, lastProcessed id y.shared.past = some version ∧
        Alike version (y.shared.world.desk.limiters.get? id)) ∧
    ∀ old new : Limiter, y.shared.world.desk.limiters.get? new.metadata.id = some old →
      old.spec = new.spec → old.metadata.generation = new.metadata.generation →
      (y.shared.world.indexes.publish (.limiters (.apply new))).1 = [] ∧
        (y.shared.world.indexes.handle (.limiters (.apply new))).specQueue
          = y.shared.world.indexes.specQueue := by
  have hstart : Kept (rules s) AllTidy (fun _ => AtRest) x := by
    refine ⟨fun _ => .owing [], ?_, fun t => ?_⟩
    · show Tidy x.shared.world.desk x.shared.past _
      rw [hdesk, hpast]
      exact .new capacity
    · obtain ⟨r, hr⟩ := hidle t
      rw [hr]
      exact rfl
  obtain ⟨ph, htidy, hkeeps⟩ := h.kept (respect_rules s) hstart
  refine ⟨fun hnone hwatch hqueued hactive id hid => ?_, fun old new hold hspec hgeneration => ?_⟩
  · -- nobody is at work, no key waits and none is owed
    have hidle : ∀ t k, (ph t).key? ≠ some k := fun t k hk =>
      absurd (htidy.active t k hk) (by rw [hactive]; exact Std.ExtTreeSet.not_mem_empty)
    cases htidy.accounted hnone id (.inl hid) with
    | due hdue => exact absurd hdue (htidy.orderly.not_due hqueued hactive id)
    | taken t ht => exact absurd (by rw [ht]; rfl) (hidle t id)
    | busy t found ht => exact absurd (by rw [ht]; rfl) (hidle t id)
    | processed _ version hversion halike => exact ⟨version, hversion, halike⟩
    | owed ids ht hmem =>
      obtain ⟨r, hr⟩ := hwatch
      have hrest := hkeeps .watch
      rw [hr] at hrest
      rw [show ph .watch = .owing [] from hrest] at ht
      cases ht
      cases hmem
  · have halike : Alike (y.shared.world.indexes.limiters.index.get? new.metadata.id)
        (some new) := by
      rw [show y.shared.world.indexes.limiters.index.get? new.metadata.id = some old from hold]
      exact ⟨hspec, hgeneration⟩
    exact ⟨LimiterIndex.apply_of_alike halike, Indexes.specQueue_handle_of_alike halike⟩

/-- Rules under which steps may be performed as they are, and the watch and workers may begin. -/
structure Allows (s : Settings) (G : Rules Hand (Option (IndexEvent Limiter)) RoundResult) :
    Prop where
  answers : ∀ w a, G.answers w a (w.perform a).1 (w.perform a).2
  begins : ∀ {t note w p w'}, Begins s t note w p w' → G.begins t note w p w'

/-- Steps performed as they are keep to the rules. -/
theorem allows_rules (s : Settings) : Allows s (rules s) where
  answers _ a := .performed rfl a
  begins h := h

/-- The watch takes an event into the index, and then parties take turns. -/
def handled (x : Parties Hand (Option (IndexEvent Limiter)) RoundResult) (e : IndexEvent Limiter)
    (ts : List Hand) : Parties Hand (Option (IndexEvent Limiter)) RoundResult :=
  let (spec, _, indexes) := x.shared.world.indexes.publish (.limiters e)
  Parties.turns
    { shared := x.shared.started .watch (some e) { x.shared.world with indexes }
      left := Function.update x.left .watch (publishAll spec) } ts

/-- The watch may take an event in and push what it publishes. -/
theorem Allows.reaches_handled {G : Rules Hand (Option (IndexEvent Limiter)) RoundResult}
    (hG : Allows s G)
    {e : IndexEvent Limiter} {ts : List Hand} (hwatch : succeeded (x.left .watch) = true) :
    Reaches G x (handled x e ts) :=
  Reaches.trans (.snoc .refl (.start (eq_done_of_succeeded hwatch) (hG.begins (.handle e _))))
    (Parties.reaches_turns hG.answers _ ts)

/-- A worker may make a round. -/
theorem Allows.reaches_round {G : Rules Hand (Option (IndexEvent Limiter)) RoundResult}
    (hG : Allows s G)
    {n : Nat} {ts : List Hand} (hworker : succeeded (x.left (.worker n)) = true) :
    Reaches G x ((x.begun (.worker n) none (Round.changes s)).turns ts) :=
  (Parties.reaches_begun (eq_done_of_succeeded hworker) (hG.begins (.work n _))).trans
    (Parties.reaches_turns hG.answers _ ts)

/-- A new desk. -/
def nothingKnown : Parties Hand (Option (IndexEvent Limiter)) RoundResult :=
  { shared := ⟨Pass.reviewsWorld [], fun _ => none, []⟩, left := fun _ => .done (.ok ()) }

/-- The reviews have been applied. -/
def reviewsApplied : Parties Hand (Option (IndexEvent Limiter)) RoundResult :=
  handled nothingKnown (.apply (Pass.reviewsLimiter 1 [("v1", "1")])) [.watch]

/-- A worker has taken their key and looked them up. -/
def reviewsFound : Parties Hand (Option (IndexEvent Limiter)) RoundResult :=
  (reviewsApplied.begun (.worker 0) none (Round.changes Pass.noMetrics)).turns
    (List.replicate 2 (.worker 0))

/-- They have been changed, and only then has the worker ended its round. -/
def reviewsChanged : Parties Hand (Option (IndexEvent Limiter)) RoundResult :=
  handled reviewsFound (.apply (Pass.reviewsLimiter 2 [("v1", "2")]))
    (.watch :: List.replicate 40 (.worker 0))

/-- The worker has made another round. -/
def reviewsSettled : Parties Hand (Option (IndexEvent Limiter)) RoundResult :=
  (reviewsChanged.begun (.worker 0) none (Round.changes Pass.noMetrics)).turns
    (List.replicate 44 (.worker 0))

/-- All of this is reached. -/
theorem reaches_reviewsSettled : Reaches (rules Pass.noMetrics) nothingKnown reviewsSettled := by
  have happlied : Reaches (rules Pass.noMetrics) nothingKnown reviewsApplied :=
    (allows_rules _).reaches_handled rfl
  have hfound : Reaches (rules Pass.noMetrics) reviewsApplied reviewsFound :=
    (allows_rules _).reaches_round (by decide +kernel)
  have hchanged : Reaches (rules Pass.noMetrics) reviewsFound reviewsChanged :=
    (allows_rules _).reaches_handled (by decide +kernel)
  have hsettled : Reaches (rules Pass.noMetrics) reviewsChanged reviewsSettled :=
    (allows_rules _).reaches_round (by decide +kernel)
  exact ((happlied.trans hfound).trans hchanged).trans hsettled

/-- A change that comes while the worker is busy with the version before is processed in a second
round. -/
theorem no_change_lost_whileBusy :
    (lastLook (.worker 0) Pass.reviews reviewsFound.shared.past).map
        (fun found => found.map (·.metadata.generation)) = some (some (some 1)) ∧
      (reviewsSettled.shared.world.desk.limiters.get? Pass.reviews).map (·.metadata.generation)
        = some (some 2) ∧
      ∃ version, lastProcessed Pass.reviews reviewsSettled.shared.past = some version ∧
        Alike version (reviewsSettled.shared.world.desk.limiters.get? Pass.reviews) := by
  -- what the theorem asks for at the end, by running it
  have hend : NoneRefused reviewsSettled.shared.past ∧
      succeeded (reviewsSettled.left .watch) = true ∧
      reviewsSettled.shared.world.desk.queue.queued.isEmpty = true ∧
      reviewsSettled.shared.world.desk.queue.active.isEmpty = true ∧
      Touched Pass.reviews reviewsSettled.shared.past ∧
      (reviewsSettled.shared.world.desk.limiters.get? Pass.reviews).map (·.metadata.generation)
        = some (some 2) := by
    decide +kernel
  obtain ⟨hnone, hwatch, hqueued, hactive, htouched, hgeneration⟩ := hend
  refine ⟨by decide +kernel, hgeneration, ?_⟩
  exact (no_change_lost rfl rfl (fun _ => ⟨_, rfl⟩) reaches_reviewsSettled).1 hnone
    ⟨_, eq_done_of_succeeded hwatch⟩ (Std.ExtTreeSet.isEmpty_iff.1 hqueued)
    (Std.ExtTreeSet.isEmpty_iff.1 hactive) _ htouched

end Delivery

end MeshLimiter
