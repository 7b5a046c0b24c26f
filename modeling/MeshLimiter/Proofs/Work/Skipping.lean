import MeshLimiter.Proofs.Work.Delivery
import MeshLimiter.Proofs.Work.Record
/-!
# Which limiters are passed over

A worker passes a limiter over if the last pass that succeeded saw the same material, and was for
the same specification or the same generation. Generations grow with each change of the
specification of an object, so for an object that the last pass was for already this is right. A
limiter that was deleted and created again is another object, and its generations start anew: if the
worker takes its key only then, it goes by the generation of the object that is gone.

* **`Recall.keeps_plain`**, **`Recall.keeps_reconcile`**: passes leave standing what is on record;
* **`Recall.passed_over_iff_recalled`**: when a limiter is passed over, and that this is right for
  an object that was not created anew;
* **`Recall.exists_passed_over_recreated`**: it is not for one that was.
-/

namespace MeshLimiter

open Interleaving
open Delivery (Hand Past publishAll handled nothingKnown)

namespace Recall

variable {found : Option (ResourceId × Option Limiter)} {s : Settings} {id : ResourceId}
  {l : Limiter}
  {t : Hand} {σ σ' : Shared Hand (Option (IndexEvent Limiter))} {ph : Hand → Phase} {α : Type}

/-! ## Steps that need no explanation

Most steps of a round neither look into the index nor ask what was applied. What they are replied
needs no explaining. -/

/-- Commands that need no explanation, or note what was found as applied. -/
def Plain (found : Option (ResourceId × Option Limiter)) : Command → Prop
  | .step (.findLimiter _) | .step (.findApplied _) => False
  | .step (.setApplied id x) => ∀ applied, x = some applied → ∃ l, found = some (id, some l) ∧
      applied.generation = l.metadata.generation ∧ applied.spec = l.spec
  | _ => True

/-- So are those of a pass in full. -/
theorem plain_of_syncs {c : Command} (h : Pass.Syncs id l c) : Plain (some (id, some l)) c := by
  cases c with
  | step a =>
    cases a with
    | setApplied k x =>
      obtain ⟨rfl, revision, rfl⟩ := h
      rintro applied ⟨⟩
      exact ⟨l, rfl, rfl, rfl⟩
    | findLimiter | findApplied => cases h
    | _ => trivial
  | _ => trivial

/-- So are those of a deletion. -/
theorem plain_of_forgets {c : Command} (h : Pass.Forgets c) : Plain found c := by
  cases c with
  | step a =>
    cases a with
    | setApplied k x =>
      obtain rfl : x = none := h
      exact nofun
    | findLimiter | findApplied => cases h
    | _ => trivial
  | _ => trivial

/-- A plain step leaves everything standing. -/
theorem standing_plain {c : Command} {r : c.Reply} (hc : Plain found c) (h : Standing σ ph)
    (hφ : ph t = .working found) (hp : Performs World.Minds t σ c r σ') : Standing σ' ph := by
  cases hp with
  | @step a r w answer =>
    obtain ⟨hunasked, hfound⟩ : (Phase.working found).Holds t σ.past := hφ ▸ h.phases t
    have hafter : (Phase.working found).Holds t (.did t ⟨a, r⟩ :: σ.past) := by
      refine ⟨unasked_did ?_, fun x hx => ?_⟩
      · rintro id rfl
        cases hc
      · rw [lastFound_self (by rintro k rfl; cases hc)]
        exact hfound x hx
    have hdid := h.did answer ?_ (fun id last hasked => absurd hasked (hunasked id last)) hafter
    · rwa [← hφ, Function.update_eq_self] at hdid
    · -- what it notes is the limiter that it has found
      rintro id applied rfl
      obtain ⟨l, rfl, hl⟩ := hc applied rfl
      exact ⟨l, hfound _ rfl, hl⟩
  | acquire | release | await | sleepUntil | retryAfter =>
      exact ⟨h.faithful, h.applied, h.known, h.phases⟩

/-- So does a program of such steps. -/
theorem keeps_plain {p : Program α} (hp : p.Takes (Plain found)) :
    p.Keeps World.Minds Standing t (fun _ φ => φ = .working found) (.working found) :=
  hp.keeps (fun _ _ _ _ _ hc h hφ => standing_plain hc h hφ) fun _ => rfl

/-! ## A limiter that is compared with what was applied

The worker looks for an entry, reads its revision, asks what was last applied, and then passes the
limiter over or begins a pass. -/

/-- A hand that has found a limiter looks at its material. -/
theorem Standing.comparing {a : Step} {r : a.Reply} {revision : Option Nat} (h : Standing σ ph)
    (hφ : Unasked t σ.past ∧ lastFound t σ.past = some (id, some l))
    (ha : (∃ k, a = .findEntry k) ∨ ∃ e, a = .readEntry e)
    (hrevision : lastRevision t (.did t ⟨a, r⟩ :: σ.past) = revision)
    (hp : Performs World.Minds t σ (.step a) r σ') :
    Standing σ' (Function.update ph t (.comparing id l revision)) := by
  obtain ⟨w, answer, rfl⟩ := performs_step.1 hp
  -- the step is neither a look, a question nor a note, so what these three tell is as before
  have hlooks : ∀ k, a ≠ .findLimiter k := by
    rcases ha with ⟨k, rfl⟩ | ⟨e, rfl⟩ <;> exact fun _ => nofun
  have hasks : ∀ k, a ≠ .findApplied k := by
    rcases ha with ⟨k, rfl⟩ | ⟨e, rfl⟩ <;> exact fun _ => nofun
  have hnotes : ∀ k x, a ≠ .setApplied k x := by
    rcases ha with ⟨k, rfl⟩ | ⟨e, rfl⟩ <;> exact fun _ _ => nofun
  refine h.did answer (fun k x heq => absurd heq (hnotes k _))
    (fun k last hasked => absurd hasked (hφ.1 k last)) ⟨unasked_did hasks, ?_, hrevision⟩
  rw [lastFound_self hlooks]
  exact hφ.2

/-- It is told what was last applied. -/
theorem Standing.told {revision : Option Nat} {last : Option Applied} (h : Standing σ ph)
    (hφ : ph t = .comparing id l revision)
    (hp : Performs World.Minds t σ (.step (.findApplied id)) last σ') :
    Standing σ' (Function.update ph t (.told id l revision last)) := by
  obtain ⟨w, answer, rfl⟩ := performs_step.1 hp
  obtain ⟨hunasked, hfound, hrevision⟩ : (Phase.comparing id l revision).Holds t σ.past :=
    hφ ▸ h.phases t
  refine h.did (a := .findApplied id) answer (fun _ _ => nofun)
    (fun k last hasked => absurd hasked (hunasked k last)) ⟨lastStep_self, ?_, ?_⟩
  · exact (lastFound_self (a := .findApplied id) fun _ => nofun).trans hfound
  · exact (lastRevision_self (a := .findApplied id) (fun _ => nofun) fun _ => nofun).trans hrevision

/-- It passes the limiter over, or goes on to work on it. -/
theorem Standing.decided {a : Step} {r : a.Reply} {revision : Option Nat} {last : Option Applied}
    (h : Standing σ ph) (hφ : ph t = .told id l revision last)
    (ha : a = skip ∧ Pass.isApplied last l revision = true ∨
      a = .addInterest id ∧ Pass.isApplied last l revision = false)
    (hp : Performs World.Minds t σ (.step a) r σ') :
    Standing σ' (Function.update ph t (.working (some (id, some l)))) := by
  obtain ⟨w, answer, rfl⟩ := performs_step.1 hp
  obtain ⟨hasked, hfound, hrevision⟩ : (Phase.told id l revision last).Holds t σ.past :=
    hφ ▸ h.phases t
  have hafter : (Phase.working (some (id, some l))).Holds t (.did t ⟨a, r⟩ :: σ.past) := by
    refine ⟨unasked_did ?_, ?_⟩
    · rcases ha with ⟨rfl, -⟩ | ⟨rfl, -⟩ <;> exact nofun
    · rintro x ⟨⟩
      rw [lastFound_self (by rcases ha with ⟨rfl, -⟩ | ⟨rfl, -⟩ <;> exact nofun)]
      exact hfound
  refine h.did answer ?_ (fun k last' hk => ?_) hafter
  · rcases ha with ⟨rfl, -⟩ | ⟨rfl, -⟩ <;> exact nofun
  · -- its last step was the question, so this one is the decision
    rw [hasked] at hk
    cases Option.some.inj hk
    refine ⟨l, hfound, ?_⟩
    rw [hrevision]
    rcases ha with ⟨rfl, happlied⟩ | ⟨rfl, happlied⟩
    · exact iff_of_true rfl happlied
    · exact iff_of_false nofun (by rw [happlied]; exact Bool.false_ne_true)

/-- **The pass over a changed limiter** passes it over exactly if it is as applied. -/
theorem keeps_reconcile (hkey : Pass.keyOf l = .ok id) :
    (Pass.reconcile s l).run.Keeps World.Minds Standing t
      (fun _ φ => φ = .working (some (id, some l))) (.working (some (id, some l))) := by
  -- the material has been looked at; now the question and the decision follow one upon the other
  have hskip : ∀ revision : Option Nat,
      (Pass.skipOrSync s id l revision).run.Keeps World.Minds Standing t
      (fun _ φ => φ = .working (some (id, some l))) (.comparing id l revision) := by
    intro revision
    refine Attempt.keeps_lift_bind (Program.keeps_command
      fun σ ph (last : Option Applied) σ' h hφ hp => ⟨_, h.told hφ hp, ?_⟩)
    split
    · next happlied =>
      exact Program.Keeps.bind (Program.keeps_command fun σ ph r σ' h hφ hp =>
        ⟨_, h.decided hφ (.inl ⟨rfl, happlied⟩) hp, rfl⟩)
    · next happlied =>
      refine Attempt.keeps_lift_bind (Program.keeps_command fun σ ph r σ' h hφ hp =>
        ⟨_, h.decided hφ (.inr ⟨rfl, by simpa using happlied⟩) hp, ?_⟩)
      exact keeps_plain (Attempt.takes_noting
        ((Pass.takes_sync s id l).mono fun _ h => plain_of_syncs h.syncs)
        fun _ => trivial)
  unfold Pass.reconcile
  rw [hkey]
  show (if l.spec.sets.isEmpty then _ else _ : Attempt PassError Unit).run.Keeps _ _ _ _ _
  split
  · -- a limiter without sets is not compared with anything
    exact keeps_plain (Attempt.takes_step_bind trivial fun _ => trivial)
  · refine Attempt.keeps_lift_bind (Program.keeps_command
      fun σ ph (entry : Option EntryId) σ' h hφ hp => ?_)
    have hstart : (Phase.working (some (id, some l))).Holds t σ.past := hφ ▸ h.phases t
    refine ⟨.comparing id l none, h.comparing (a := .findEntry id) ⟨hstart.1, hstart.2 _ rfl⟩
      (.inl ⟨_, rfl⟩) (if_pos rfl) hp, ?_⟩
    cases entry with
    | none => exact hskip none
    | some e =>
      -- there is an entry, and its revision is the one that was seen last
      refine Attempt.keeps_lift_bind (Program.keeps_command
        fun σ ph (held : Entry) σ' h hφ hp => ⟨.comparing id l (some held.revision), ?_, hskip _⟩)
      have hsaw : (Phase.comparing id l none).Holds t σ.past := hφ ▸ h.phases t
      exact h.comparing (a := .readEntry e) ⟨hsaw.1, hsaw.2.1⟩ (.inr ⟨_, rfl⟩) (if_pos rfl) hp

/-! ## Rounds

A worker takes a key, looks the limiter up, and makes its pass or its deletion. -/

/-- What was found in the index is known by its key. -/
theorem Standing.keyOf (h : Standing σ ph) (hl : σ.world.desk.limiters.get? id = some l) :
    Pass.keyOf l = .ok id :=
  Pass.keyOf_of_takes (h.known id l hl).2

/-- A hand looks a limiter up. -/
theorem Standing.looked {x : Option Limiter} (h : Standing σ ph) (hφ : ph t = .working found)
    (hp : Performs World.Minds t σ (.step (.findLimiter id)) x σ') :
    Standing σ' (Function.update ph t (.working (some (id, x)))) ∧
      ∀ l, x = some l → Pass.keyOf l = .ok id := by
  obtain ⟨w, answer, rfl⟩ := performs_step.1 hp
  obtain ⟨hunasked, -⟩ : (Phase.working found).Holds t σ.past := hφ ▸ h.phases t
  refine ⟨h.did (a := .findLimiter id) answer (fun _ _ => nofun)
    (fun k last hasked => absurd hasked (hunasked k last)) ⟨unasked_did fun _ => nofun, ?_⟩,
    fun l hl => ?_⟩
  · rintro y ⟨⟩
    exact if_pos rfl
  · exact h.keyOf (answer.serves.findLimiter.1.symm.trans hl)

/-- A hand is at its work, or has ended. -/
def Working (_ : RoundResult) (φ : Phase) : Prop :=
  ∃ found, φ = .working found

/-- A hand that takes only plain steps to its end is at its work all the time. -/
theorem keeps_rest {p : Program RoundResult} (hp : p.Takes (Plain found)) :
    p.Keeps World.Minds Standing t Working (.working found) :=
  (keeps_plain hp).mono fun _ _ hφ => ⟨_, hφ⟩

/-- It looks the limiter up, and what it does then depends on what it found. -/
theorem keeps_passFor :
    (Round.passFor s id).run.Keeps World.Minds Standing t (fun _ φ => ∃ found, φ = .working found)
      (.working found) := by
  refine Attempt.keeps_lift_bind (Program.keeps_command
    fun σ ph (x : Option Limiter) σ' h hφ hp => ⟨.working (some (id, x)), (h.looked hφ hp).1, ?_⟩)
  cases x with
  | some l => exact (keeps_reconcile ((h.looked hφ hp).2 l rfl)).mono fun _ φ hφ => ⟨_, hφ⟩
  | none =>
    exact (keeps_plain ((Pass.takes_delete s id).mono fun _ h => plain_of_forgets h.forgets)).mono
      fun _ φ hφ => ⟨_, hφ⟩

/-- **A round of a worker for changed limiters.** -/
theorem keeps_changes :
    (Round.changes s).Keeps World.Minds Standing t Working (.working found) := by
  refine Program.Keeps.bind ((keeps_plain (Program.takes_step (a := .tryPop .spec) trivial)).mono
    fun (taken : Option ResourceId) φ hφ => ?_)
  subst hφ
  cases taken with
  | none => exact keeps_rest ⟨trivial, fun _ => trivial⟩
  | some id =>
    refine Program.Keeps.bind (keeps_passFor.mono fun result φ hφ => ?_)
    obtain ⟨found, rfl⟩ := hφ
    cases result with
    | ok => exact keeps_rest ⟨trivial, fun _ => ⟨trivial, fun _ => trivial⟩⟩
    | error => exact keeps_rest ⟨trivial, fun _ => ⟨trivial, fun _ => ⟨trivial, fun _ => trivial⟩⟩⟩

/-- **A round of a worker for metrics.** -/
theorem keeps_metrics :
    (Round.metrics s).Keeps World.Minds Standing t Working (.working found) := by
  refine Program.Keeps.bind ((keeps_plain (Program.takes_step (a := .tryPop .metric) trivial)).mono
    fun (taken : Option ResourceId) φ hφ => ?_)
  subst hφ
  cases taken with
  | none => exact keeps_rest ⟨trivial, fun _ => trivial⟩
  | some id =>
    refine Program.Keeps.bind (Program.keeps_command
      fun σ ph (x : Option Limiter) σ' h hφ hp => ⟨.working (some (id, x)), (h.looked hφ hp).1, ?_⟩)
    -- the end of the round takes plain steps
    have hrest : (Program.step (.finish .metric id) >>= fun _ =>
        (.done (.ok ()) : Program RoundResult)).Takes
        (Plain (some (id, x))) := ⟨trivial, fun _ => trivial⟩
    refine keeps_rest ?_
    cases x with
    | none => exact hrest
    | some l =>
      refine Program.takes_bind ?_ fun _ => hrest
      exact (Pass.takes_refresh s ((h.looked hφ hp).2 l rfl)).mono fun _ h => plain_of_syncs h.syncs

/-- Pushing keys takes plain steps. -/
theorem takes_publishAll (ids : List ResourceId) : (publishAll ids).Takes (Plain found) := by
  induction ids with
  | nil => trivial
  | cons id ids ih => exact ⟨trivial, fun _ => ih⟩

/-! ## All parties together

The watch, the workers and all else may go on in any order of their steps. -/

/-- What a party may begin on: a worker takes changed limiters, or limiters whose metrics are to be
looked at. -/
inductive Begins (s : Settings) :
    Hand → Option (IndexEvent Limiter) → World → Program RoundResult → World → Prop where
  | delivery {t : Hand} {note : Option (IndexEvent Limiter)} {w w' : World}
    {p : Program RoundResult} (begins : Delivery.Begins s t note w p w') : Begins s t note w p w'
  | metrics (n : Nat) (w : World) : Begins s (.worker n) none w (Round.metrics s) w

/-- The watch feeds the index and the queue, workers make passes, and all else may change by
itself. -/
def rules (s : Settings) : Rules Hand (Option (IndexEvent Limiter)) RoundResult where
  answers := World.Minds
  begins := Begins s
  outside σ w := w.desk = σ.world.desk ∧ w.memory.applied = σ.world.memory.applied

theorem respect_rules (s : Settings) : (rules s).Respect Standing fun _ => Working where
  begins := by
    rintro t note σ ph y p w h ⟨found, hφ⟩ begins
    have hstart : ∀ {u note v}, Standing (σ.started u note v) ph →
        Standing (σ.started u note v) (Function.update ph t (.working found)) := by
      intro u note v hstands
      rwa [← hφ, Function.update_eq_self]
    have hsame : ∀ u, Standing (σ.started u none σ.world) ph :=
      fun u => h.began rfl fun id l hl => .inl hl
    cases begins with
    | metrics n => exact ⟨_, hstart (hsame _), keeps_metrics⟩
    | delivery begins =>
      cases begins with
      | work n => exact ⟨_, hstart (hsame _), keeps_changes⟩
      | again n _ time id =>
        exact ⟨_, hstart (hsame _), keeps_rest ⟨trivial, fun _ => ⟨trivial, fun _ => trivial⟩⟩⟩
      | handle e =>
        -- only here the index changes, and what is new in it is on record with the event
        refine ⟨_, hstart (h.began rfl fun id l hl => ?_), keeps_rest (takes_publishAll _)⟩
        exact (Indexes.get?_publish hl).imp And.left fun hl => ⟨e, rfl, hl⟩
  outside := by
    rintro σ ph w h ⟨hdesk, happlied⟩
    exact
      { faithful := h.faithful
        applied := fun id => (congrArg (·[id]?) happlied).trans (h.applied id)
        known := fun id l hl => by
          rw [hdesk] at hl
          exact h.known id l hl
        phases := h.phases }

/-! ## Passing over

A step with which a limiter is passed over is explained, so what was asked before it was answered
from the record. -/

section

variable {past between : Past} {e : Event} {last : Option Applied}

/-- What goes by the steps of a hand alone is left as it is by what others do. -/
theorem append_of_others {f : Past → α} (hbegan : ∀ u note past, f (.began u note :: past) = f past)
    (hdid : ∀ u e past, u ≠ t → f (.did u e :: past) = f past)
    (hbetween : ∀ e', Occurrence.did t e' ∉ between) : f (between ++ past) = f past := by
  induction between with
  | nil => rfl
  | cons o between ih =>
    have hrest := ih fun e' he' => hbetween e' (List.mem_cons_of_mem _ he')
    cases o with
    | began u note => exact (hbegan u note _).trans hrest
    | did u e' =>
      refine (hdid u e' _ ?_).trans hrest
      rintro rfl
      exact hbetween e' List.mem_cons_self

/-- Between its own steps nothing changes what a hand did last. -/
theorem lastStep_append (hbetween : ∀ e', Occurrence.did t e' ∉ between) :
    lastStep t (between ++ past) = lastStep t past :=
  append_of_others (fun _ note _ => lastStep_began note) (fun _ _ _ => lastStep_of_ne) hbetween

/-- Nor what it has found. -/
theorem lastFound_append (hbetween : ∀ e', Occurrence.did t e' ∉ between) :
    lastFound t (between ++ past) = lastFound t past :=
  append_of_others (fun _ note _ => lastFound_began note) (fun _ _ _ => lastFound_of_ne) hbetween

/-- Nor the revision that it has seen. -/
theorem lastRevision_append (hbetween : ∀ e', Occurrence.did t e' ∉ between) :
    lastRevision t (between ++ past) = lastRevision t past :=
  append_of_others (fun _ note _ => lastRevision_began note)
    (fun _ _ _ => lastRevision_of_ne) hbetween

end

/-- A limiter is as it was applied if revision and specification are the same, or revision and
generation. -/
theorem isApplied_iff {applied : Applied} {revision : Option Nat} :
    Pass.isApplied (some applied) l revision = true ↔ revision = some applied.revision ∧
      (l.spec = applied.spec ∨
        l.metadata.generation.isSome = true ∧ l.metadata.generation = applied.generation) := by
  simp only [Pass.isApplied, Bool.and_eq_true, Bool.or_eq_true, decide_eq_true_eq]
  rw [eq_comm (a := some applied.revision), eq_comm (a := applied.spec), or_comm]
  refine and_congr_right fun _ => or_congr_right ⟨fun h => ?_, fun h => ?_⟩
  · exact ⟨h.2 ▸ h.1, h.2.symm⟩
  · exact ⟨h.2 ▸ h.1, h.2.symm⟩

/-- The generation of an object grows with each change of its specification, as far as the watch was
told of it. -/
def OneSpecEach (id : ResourceId) (past : Past) : Prop :=
  ∀ l ∈ given past, ∀ l' ∈ given past, LimiterIndex.Takes l id → LimiterIndex.Takes l' id →
    l.metadata.uid.isSome = true → l.metadata.uid = l'.metadata.uid →
    l.metadata.generation.isSome = true → l.metadata.generation = l'.metadata.generation →
    l.spec = l'.spec

variable {x y : Parties Hand (Option (IndexEvent Limiter)) RoundResult}

/-- Nothing has happened yet, and nothing is known. -/
structure Anew (x : Parties Hand (Option (IndexEvent Limiter)) RoundResult) : Prop where
  limiters : x.shared.world.desk.limiters = {}
  applied : x.shared.world.memory.applied = ∅
  past : x.shared.past = []
  idle : ∀ t, ∃ r, x.left t = .done r

/-- At first nothing is noted, so nothing needs explaining. -/
theorem Anew.kept (h : Anew x) : Kept (rules s) Standing (fun _ => Working) x := by
  -- no step was taken, and no hand is at work
  refine ⟨fun _ => .working none, ⟨?_, fun id => ?_, fun id l hl => ?_, fun t => ?_⟩, fun t => ?_⟩
  · rw [h.past]
    exact .nil
  · rw [h.past, h.applied]
    exact Std.ExtTreeMap.getElem?_empty
  · rw [h.limiters] at hl
    cases Std.ExtTreeMap.getElem?_empty.symm.trans hl
  · rw [h.past]
    refine ⟨fun _ _ => nofun, fun x hx => ?_⟩
    cases hx
  · obtain ⟨r, hr⟩ := h.idle t
    rw [hr]
    exact ⟨none, rfl⟩

/-- **When a limiter is passed over.** Let a watch and any number of workers start anew. Wherever a
worker has asked what was last applied, it was for a limiter that it had found in the index. In its
next step it passes the limiter over exactly if a pass has succeeded since the limiter was last
deleted, the material has still the revision that the last such pass saw, and that pass was for the
same specification or the same generation. So if generations grow with each change of the
specification of an object, and the limiter is the object that the last pass was for, it is passed
over for the same specification only. -/
theorem passed_over_iff_recalled (hx : Anew x) (h : Reaches (rules s) x y)
    {later between before : Past}
    {t : Hand} {e : Event} {id : ResourceId} {last : Option Applied}
    (hy : y.shared.past = later ++ .did t e ::
      (between ++ .did t ⟨.findApplied id, last⟩ :: before))
    (hbetween : ∀ e', .did t e' ∉ between) :
    ∃ l, lastFound t before = some (id, some l) ∧
      (e.step = skip ↔ ∃ l' revision, lastSuccess id before = some (l', revision) ∧
        lastRevision t before = some revision ∧
        (l.spec = l'.spec ∨
          l.metadata.generation.isSome = true ∧ l.metadata.generation = l'.metadata.generation)) ∧
      (e.step = skip → OneSpecEach id before →
        ∀ l' revision, lastSuccess id before = some (l', revision) →
        l.metadata.uid.isSome = true → l.metadata.uid = l'.metadata.uid → l.spec = l'.spec) := by
  obtain ⟨ph, hstands, -⟩ := h.kept (respect_rules s) hx.kept
  have hfaithful : Faithful
      (later ++ .did t e :: (between ++ .did t ⟨.findApplied id, last⟩ :: before)) :=
    hy ▸ hstands.faithful
  have hasked : Faithful (between ++ .did t ⟨.findApplied id, last⟩ :: before) := by
    cases hfaithful.of_append with
    | did hasked _ => exact hasked
  have hbefore : Faithful before := by
    cases hasked.of_append with
    | did hbefore _ => exact hbefore
  have hlast : last = lastApplied id before := hasked.explained.told id last rfl
  obtain ⟨l, hl, hdecided⟩ := hfaithful.explained.decided id last
    ((lastStep_append hbetween).trans lastStep_self)
  have hfound : lastFound t before = some (id, some l) :=
    ((lastFound_append hbetween).trans (lastFound_self (a := .findApplied id) fun _ =>
      nofun)).symm.trans hl
  have hrevision : lastRevision t (between ++ .did t ⟨.findApplied id, last⟩ :: before)
      = lastRevision t before :=
    (lastRevision_append hbetween).trans
      (lastRevision_self (a := .findApplied id) (fun _ => nofun) fun _ => nofun)
  replace hdecided : e.step = skip ↔
      Pass.isApplied (lastApplied id before) l (lastRevision t before) = true :=
    hdecided.trans
      (iff_of_eq (congrArg₂ (fun last revision => Pass.isApplied last l revision = true)
      hlast hrevision))
  refine ⟨l, hfound, ?_⟩
  rcases hbefore.lastSuccess_of_lastApplied id with
    ⟨hnone, hsuccess⟩ | ⟨applied, l', happlied, hsuccess, hgeneration, hspec⟩
  · -- nothing was applied since the limiter was last deleted
    rw [hnone] at hdecided
    rw [hsuccess]
    refine ⟨hdecided.trans ⟨fun happlied => absurd happlied Bool.false_ne_true, ?_⟩, ?_⟩
    · rintro ⟨_, _, hnone, -⟩
      cases hnone
    · intro _ _ _ _ hnone
      cases hnone
  · -- it was, and what is known of it is the limiter of the pass that succeeded last
    rw [happlied, isApplied_iff, hgeneration, hspec] at hdecided
    refine ⟨hdecided.trans ⟨fun ⟨hrevision, hsame⟩ => ⟨l', _, hsuccess, hrevision, hsame⟩, ?_⟩, ?_⟩
    · rintro ⟨l'', revision, hl'', hrevision, hsame⟩
      obtain ⟨rfl, rfl⟩ := Prod.mk.inj (Option.some.inj (hsuccess.symm.trans hl''))
      exact ⟨hrevision, hsame⟩
    · intro hskip honce l'' revision hl'' huid hobject
      obtain ⟨rfl, rfl⟩ := Prod.mk.inj (Option.some.inj (hsuccess.symm.trans hl''))
      obtain ⟨-, hsame | ⟨hsome, hsame⟩⟩ := hdecided.1 hskip
      · exact hsame
      · -- the watch was told of both versions, and they are of one object and one generation
        obtain ⟨hgiven, htakes⟩ := hbefore.given_of_lastFound hfound
        obtain ⟨hgiven', htakes'⟩ := hbefore.given_of_lastSuccess hsuccess
        exact honce l hgiven l' hgiven' htakes htakes' huid hobject hsome hsame

/-! ## A limiter that is created again

The watch tells of the deletion and of the new object before a worker takes the key. The new object
begins at the same generation, so it is passed over with another specification. -/

/-- A limiter of the reviews as an object with an identity. -/
def object (uid : String) (generation : Int64) (quota : String) : Limiter :=
  let l := Pass.reviewsLimiter generation [("v1", quota)]
  { l with metadata := { l.metadata with uid := some uid } }

/-- The first object has been applied, and a worker has made its round. -/
def firstDone : Parties Hand (Option (IndexEvent Limiter)) RoundResult :=
  ((handled nothingKnown (.apply (object "1" 1 "1")) [.watch]).begun (.worker 0) none
    (Round.changes Pass.noMetrics)).turns (List.replicate 44 (.worker 0))

/-- It has got another generation with the same specification, and the worker passes it over. -/
def sameAgain : Parties Hand (Option (IndexEvent Limiter)) RoundResult :=
  ((handled firstDone (.apply (object "1" 2 "1")) [.watch]).begun (.worker 0) none
    (Round.changes Pass.noMetrics)).turns (List.replicate 6 (.worker 0))

/-- It has been deleted, and another object created, before the worker passes that over. -/
def otherObject : Parties Hand (Option (IndexEvent Limiter)) RoundResult :=
  ((handled (handled firstDone (.delete Pass.reviews) [.watch]) (.apply (object "2" 1 "5"))
    [.watch]).begun
    (.worker 0) none (Round.changes Pass.noMetrics)).turns (List.replicate 6 (.worker 0))

/-- Whoever follows the rules of delivery follows these. -/
theorem allows_rules (s : Settings) : Delivery.Allows s (rules s) where
  answers _ a := .performed rfl rfl a
  begins h := .delivery h

theorem anew_nothingKnown : Anew nothingKnown :=
  ⟨rfl, rfl, rfl, fun _ => ⟨_, rfl⟩⟩

/-- The watch tells of an object, and a worker makes its pass. -/
theorem reaches_firstDone : Reaches (rules Pass.noMetrics) nothingKnown firstDone := by
  have happlied : Reaches (rules Pass.noMetrics) nothingKnown
      (handled nothingKnown (.apply (object "1" 1 "1")) [.watch]) :=
      (allows_rules _).reaches_handled rfl
  exact happlied.trans ((allows_rules _).reaches_round (by decide +kernel))

/-- It is told of again with the same specification. -/
theorem reaches_sameAgain : Reaches (rules Pass.noMetrics) nothingKnown sameAgain := by
  have hchanged : Reaches (rules Pass.noMetrics) firstDone
      (handled firstDone (.apply (object "1" 2 "1")) [.watch]) :=
    (allows_rules _).reaches_handled (by decide +kernel)
  exact (reaches_firstDone.trans hchanged).trans
    ((allows_rules _).reaches_round (by decide +kernel))

/-- It is deleted, and another one is created, before the worker goes on. -/
theorem reaches_otherObject : Reaches (rules Pass.noMetrics) nothingKnown otherObject := by
  have hdeleted : Reaches (rules Pass.noMetrics) firstDone
      (handled firstDone (.delete Pass.reviews) [.watch]) :=
    (allows_rules _).reaches_handled (by decide +kernel)
  have hcreated : Reaches (rules Pass.noMetrics) (handled firstDone (.delete Pass.reviews) [.watch])
      (handled (handled firstDone (.delete Pass.reviews) [.watch]) (.apply (object "2" 1 "5"))
        [.watch]) :=
    (allows_rules _).reaches_handled (by decide +kernel)
  exact ((reaches_firstDone.trans hdeleted).trans hcreated).trans
    ((allows_rules _).reaches_round (by decide +kernel))

/-- The two last steps, if a hand has asked what was last applied, and gone on. -/
structure Decision where
  hand : Hand
  event : Event
  id : ResourceId
  last : Option Applied
  before : Past

def decision? : Past → Option Decision
  | .did t e :: .did u ⟨.findApplied id, (last : Option Applied)⟩ :: before =>
    if u = t then some ⟨t, e, id, last, before⟩ else none
  | _ => none

/-- The two steps stand at the end of what has happened. -/
theorem eq_of_decision? {past : Past} {d : Decision} (h : decision? past = some d) :
    past = [] ++ .did d.hand d.event ::
      ([] ++ .did d.hand ⟨.findApplied d.id, d.last⟩ :: d.before) := by
  unfold decision? at h
  split at h
  · split at h
    · next heq =>
      obtain rfl := Option.some.inj h
      rw [heq]
      rfl
    · cases h
  · cases h

/-- Whether a limiter was passed over. -/
def isSkip : Step → Bool
  | .count (.pass .spec .unchanged) => true
  | _ => false

theorem eq_skip_of_isSkip {a : Step} (h : isSkip a = true) : a = skip := by
  unfold isSkip at h
  split at h
  · rfl
  · cases h

instance (l : Limiter) (id : ResourceId) : Decidable (LimiterIndex.Takes l id) :=
  inferInstanceAs (Decidable (l.metadata.ns.isSome = true ∧ l.metadata.id = id))

instance (id : ResourceId) (past : Past) : Decidable (OneSpecEach id past) :=
  inferInstanceAs (Decidable (∀ l ∈ given past, ∀ l' ∈ given past, _))

/-- What is to be seen of a decision: which limiter was passed over, and which one was applied
last. -/
def Decision.passesOver (d : Decision) (l l' : Limiter) : Bool :=
  isSkip d.event.step && d.id = Pass.reviews &&
  lastFound d.hand d.before = some (Pass.reviews, some l)
    && (lastSuccess Pass.reviews d.before).map (·.1) = some l' && OneSpecEach Pass.reviews d.before

/-- What was seen of a decision says that a limiter was passed over. -/
theorem exists_of_passesOver (past : Past) (l l' : Limiter)
    (h : (decision? past).any (·.passesOver l l') = true) : ∃ t e last before revision,
      past = [] ++ .did t e :: ([] ++ .did t ⟨.findApplied Pass.reviews, last⟩ :: before) ∧
        e.step = skip ∧ lastFound t before = some (Pass.reviews, some l) ∧
        lastSuccess Pass.reviews before = some (l', revision) ∧
        OneSpecEach Pass.reviews before := by
  obtain ⟨d, hd, hpasses⟩ := (Option.any_eq_true _ _).1 h
  simp only [Decision.passesOver, Bool.and_eq_true, decide_eq_true_eq] at hpasses
  obtain ⟨⟨⟨⟨hskip, hid⟩, hfound⟩, hsuccess⟩, honce⟩ := hpasses
  obtain ⟨⟨l'', revision⟩, hlast, rfl⟩ := Option.map_eq_some_iff.1 hsuccess
  exact ⟨d.hand, d.event, d.last, d.before, revision, hid ▸ eq_of_decision? hd,
    eq_skip_of_isSkip hskip, hfound, hlast, honce⟩

/-- An object that has got another generation is passed over, for it has kept its specification. -/
theorem passed_over_iff_recalled_sameAgain : ∃ t e last before l l' revision,
    sameAgain.shared.past = .did t e :: .did t ⟨.findApplied Pass.reviews, last⟩ :: before ∧
      e.step = skip ∧ lastFound t before = some (Pass.reviews, some l) ∧
      lastSuccess Pass.reviews before = some (l', revision) ∧
      l.metadata.generation ≠ l'.metadata.generation ∧ l.spec = l'.spec := by
  obtain ⟨t, e, last, before, revision, hpast, hskip, hfound, hsuccess, honce⟩ :=
    exists_of_passesOver sameAgain.shared.past (object "1" 2 "1") (object "1" 1 "1")
      (by decide +kernel)
  obtain ⟨l, hl, -, hright⟩ :=
    passed_over_iff_recalled anew_nothingKnown reaches_sameAgain hpast (fun _ => List.not_mem_nil)
  -- the run and the theorem speak of the same limiter
  obtain rfl : object "1" 2 "1" = l := by
    rw [hfound] at hl
    exact Option.some.inj (Prod.mk.inj (Option.some.inj hl)).2
  rw [List.nil_append, List.nil_append] at hpast
  exact ⟨t, e, last, before, _, _, revision, hpast, hskip, hfound, hsuccess, by decide,
    hright hskip honce _ _ hsuccess (by decide) (by decide)⟩

/-- **An object that was created again is passed over for the one that is gone**, though the
generation of each grows with its changes: the key of the deletion still waits as the new object is
applied, and so it is taken but once. -/
theorem exists_passed_over_recreated : ¬ ∀ (s : Settings)
    (x y : Parties Hand (Option (IndexEvent Limiter)) RoundResult), Anew x → Reaches (rules s) x y →
    ∀ (later between before : Past) (t : Hand) (e : Event) (id : ResourceId)
      (last : Option Applied),
    y.shared.past = later ++ .did t e :: (between ++ .did t ⟨.findApplied id, last⟩ :: before) →
    (∀ e', .did t e' ∉ between) → e.step = skip → OneSpecEach id before →
    ∀ l l' revision, lastFound t before = some (id, some l) →
      lastSuccess id before = some (l', revision) → l.spec = l'.spec := by
  intro h
  obtain ⟨t, e, last, before, revision, hpast, hskip, hfound, hsuccess, honce⟩ :=
    exists_of_passesOver otherObject.shared.past (object "2" 1 "5") (object "1" 1 "1")
      (by decide +kernel)
  -- the statement at this run would make the two specifications equal
  have hsame := h Pass.noMetrics nothingKnown otherObject anew_nothingKnown reaches_otherObject []
    [] before t e
    Pass.reviews last hpast (fun _ => List.not_mem_nil) hskip honce _ _ revision hfound hsuccess
  exact absurd hsame (by decide +kernel)

end Recall

end MeshLimiter
