import MeshLimiter.Proofs.Pass.Collection
import MeshLimiter.Proofs.Pass.Course
/-!
# The commands of passes

Which commands passes take, whatever is answered to them.

* **`Pass.BringsAbout`**, **`Pass.OfSync`**, **`Pass.OfDelete`**: the commands of the part of a pass
  after its metrics are collected, of a whole pass, and of a deletion;
* **`Pass.WorksOn`**, **`Pass.Syncs`**: a pass notes nothing as applied but its own limiter;
* **`Pass.takes_reconcile`**, **`Pass.OfSync.syncs`**, **`Pass.OfDelete.forgets`**: no pass touches
  the spec queue or the index of limiters.
-/

namespace MeshLimiter

/-- Steps that touch neither the index of limiters nor the spec queue. -/
def Step.offDesk : Step → Bool
  | findLimiter _ | tryPop .spec | push .spec _ | finish .spec _ => false
  | _ => true

/-- Steps that only look at what is held, or count. -/
def Step.isLook : Step → Bool
  | isInterested _ | findEntry _ | readEntry _ | findApplied _ | count _ => true
  | _ => false

namespace Pass

/-- The commands of a pass that works: they touch no entry but by its number, and no lock of one. -/
def Works : Command → Prop
  | .step (.call _) | .step (.count _) | .step (.subsetsOf _) => True
  | .step (.sendQueries _) | .step (.receiveAnswers _) | .sleepUntil _ => True
  | .step (.readEntry _) | .step (.updateEntry _ _) => True
  | .step (.findWritten _) | .step (.setWritten _ _) | .step (.setApplied _ _) => True
  | .acquire .registry | .release .registry => True
  | _ => False

/-- The commands of a pass that works for a limiter: it notes nothing as applied but that
limiter. -/
def WorksOn (id : ResourceId) (l : Limiter) : Command → Prop
  | .step (.setApplied k x) => k = id ∧
      ∃ revision, x = some { generation := l.metadata.generation, spec := l.spec, revision }
  | c => Works c

variable {s : Settings} {id : ResourceId} {l : Limiter}

/-- Whoever works for a limiter works. -/
theorem WorksOn.works {c : Command} (h : WorksOn id l c) : Works c := by
  cases c with
  | step a =>
    cases a with
    | setApplied => trivial
    | _ => exact h
  | _ => exact h

/-- To collect metrics notes nothing as applied. -/
theorem worksOn_of_asks {e : EntryId} {c : Command} (h : Collected.Asks e c) : WorksOn id l c := by
  cases c with
  | step a =>
    cases a with
    | call | subsetsOf | sendQueries | receiveAnswers | count | readEntry | updateEntry => trivial
    | _ => cases h
  | sleepUntil => trivial
  | _ => cases h

/-- Nor does a call. -/
theorem worksOn_of_calls {k : ClusterCall.Concern} {c : Command} (h : c.Calls k) :
    WorksOn id l c := by
  cases c with
  | step a =>
    cases a with
    | call | count => trivial
    | _ => cases h
  | _ => cases h

/-- A merge takes no lock but that of the registry. -/
theorem worksOn_of_merges {c : Command} (h : Registry.Merges c) : WorksOn id l c := by
  cases c with
  | acquire l | release l =>
    cases l with
    | registry => trivial
    | entry => cases h
  | step a => exact worksOn_of_calls h
  | _ => cases h

/-- The commands by which a pass brings about what it has compiled. -/
inductive BringsAbout (id : ResourceId) (l : Limiter) : Command → Prop where
  | merges {c : Command} (merges : Registry.Merges c) : BringsAbout id l c
  | filter {c : Command} (subset : String) (calls : c.Calls (.filter (filterPlace id subset))) :
    BringsAbout id l c
  | findWritten : BringsAbout id l (.step (.findWritten id))
  | setWritten (written : Option SubsetNames) : BringsAbout id l (.step (.setWritten id written))
  | patchStatus (status : LimiterStatus) : BringsAbout id l (.step (.call (.patchStatus id status)))
  | setApplied (revision : Nat) : BringsAbout id l (.step (.setApplied id
      (some { generation := l.metadata.generation, spec := l.spec, revision })))

/-- What is brought about is noted for the limiter alone. -/
theorem BringsAbout.worksOn {c : Command} (h : BringsAbout id l c) : WorksOn id l c := by
  cases h with
  | merges h => exact worksOn_of_merges h
  | filter subset h => exact worksOn_of_calls h
  | setApplied revision => exact ⟨rfl, revision, rfl⟩
  | findWritten | setWritten | patchStatus => trivial

/-- Each filter is applied by calls about itself. -/
theorem takes_applyAll (a : Applying) (entries : List (String × Option FilterSpec)) :
    (applyAll id l a entries).Takes (BringsAbout id l) := by
  induction entries generalizing a with
  | nil => trivial
  | cons entry more ih =>
    refine Program.takes_bind (Program.takes_bind ?_ fun y => ?_) fun a' => ih a'
    · exact (ProxyFilter.takes_apply id l entry.1 entry.2).mono fun _ => .filter entry.1
    · cases y <;> trivial

/-- The end of a pass notes what was applied, if anything. -/
theorem takes_conclude (c : Collected) (registered : Except PassError Bool) (a : Applying) :
    (conclude id l c registered a).run.Takes (BringsAbout id l) := by
  unfold conclude
  cases registered with
  | error e => exact True.intro
  | ok b =>
    dsimp only
    split
    · exact True.intro
    · exact Attempt.takes_step_bind (.setApplied _) fun _ => trivial

/-- So the whole part after the collection takes no other commands. -/
theorem takes_bringAbout (s : Settings) (id : ResourceId) (l : Limiter) (c : Collected) :
    (bringAbout s id l c).run.Takes (BringsAbout id l) := by
  refine Attempt.takes_bind (Attempt.takes_lift ?_) fun registered => ?_
  · exact (Registry.takes_merge s id _).mono fun _ => .merges
  refine Attempt.takes_step_bind .findWritten fun written => ?_
  refine Attempt.takes_bind (Attempt.takes_lift (takes_applyAll _ _)) fun a => ?_
  refine Attempt.takes_step_bind (.setWritten _) fun _ => ?_
  have hconclude : (conclude id l c registered a).run.Takes (BringsAbout id l) :=
    takes_conclude c registered a
  dsimp only
  split
  · exact Attempt.takes_bind (Attempt.takes_call (.patchStatus _)) fun _ => hconclude
  · exact hconclude

/-- A pass that works collects metrics and brings about what it has compiled. -/
theorem takes_work (s : Settings) {e : EntryId} {P : Command → Prop}
    (hask : ∀ c, Collected.Asks e c → P c) (hbring : ∀ c, BringsAbout id l c → P c) :
    (ExceptT.adapt PassError.collection (Collected.refresh s id e) >>= fun c =>
      bringAbout s id l c).run.Takes P :=
  Attempt.takes_bind (Attempt.takes_adapt ((Collected.takes_refresh s id e).mono hask))
    fun c => (takes_bringAbout s id l c).mono hbring

/-- The collection and what is brought about both work. -/
theorem takes_work_works (s : Settings) (e : EntryId) :
    (ExceptT.adapt PassError.collection (Collected.refresh s id e) >>= fun c =>
      bringAbout s id l c).run.Takes Works :=
  takes_work s (fun _ h => (worksOn_of_asks h : WorksOn id l _).works) fun _ h => h.worksOn.works

/-- The end of a deletion, once the entry is gone. -/
def forget (s : Settings) (id : ResourceId) : Attempt PassError Unit := do
  let _ : Unit ← (Program.step (.setApplied id none) :)
  let _ : Unit ← (Program.step (.setWritten id none) :)
  recorded .delete do
    let _ ← Registry.merge s id []

/-! ## Commands that touch neither the index of limiters nor the spec queue

Where only these are taken, what is asked for on the spec queue is not lost and none is added. -/

/-- Commands that touch neither of the two. -/
def OffDesk : Command → Prop
  | .step a => a.offDesk = true
  | _ => True

/-- To look touches neither. -/
theorem offDesk_of_isLook {a : Step} (h : a.isLook = true) : OffDesk (.step a) := by
  cases a with
  | isInterested | findEntry | readEntry | findApplied | count => rfl
  | _ => cases h

/-- Nor does a pass that works. -/
theorem offDesk_of_works {c : Command} (h : Works c) : OffDesk c := by
  cases c with
  | step a =>
    cases a with
    | findLimiter | tryPop | push | finish => cases h
    | _ => rfl
  | _ => trivial

/-- Commands that do not ask what was applied, and note nothing as applied but some limiter. -/
def Syncs (id : ResourceId) (l : Limiter) : Command → Prop
  | .step (.setApplied k x) => k = id ∧
      ∃ revision, x = some { generation := l.metadata.generation, spec := l.spec, revision }
  | .step (.findApplied _) => False
  | c => OffDesk c

/-- Commands that do not ask what was applied, and note nothing as applied. -/
def Forgets : Command → Prop
  | .step (.setApplied _ x) => x = none
  | .step (.findApplied _) => False
  | c => OffDesk c

/-- What a pass over a limiter does touches neither. -/
theorem Syncs.offDesk {c : Command} (h : Syncs id l c) : OffDesk c := by
  cases c with
  | step a =>
    cases a with
    | setApplied => rfl
    | findApplied => cases h
    | _ => exact h
  | _ => exact h

/-- Nor does a deletion. -/
theorem Forgets.offDesk {c : Command} (h : Forgets c) : OffDesk c := by
  cases c with
  | step a =>
    cases a with
    | setApplied => rfl
    | findApplied => cases h
    | _ => exact h
  | _ => exact h

/-- Whoever works for a limiter does not ask what was applied. -/
theorem syncs_of_worksOn {c : Command} (h : WorksOn id l c) : Syncs id l c := by
  cases c with
  | step a =>
    cases a with
    | setApplied => exact h
    | findApplied => cases h
    | _ => exact offDesk_of_works h.works
  | _ => trivial

/-- A merge notes nothing as applied. -/
theorem forgets_of_merges {c : Command} (h : Registry.Merges c) : Forgets c := by
  cases c with
  | step a =>
    cases a with
    | call | count => rfl
    | _ => cases h
  | _ => trivial

/-! ## Whole passes and deletions

Around its work a pass takes and gives up the lock of an entry, and looks twice whether it may go
on. -/

/-- The commands of a pass over a limiter. -/
inductive OfSync (id : ResourceId) (l : Limiter) : Command → Prop where
  | acquire (e : EntryId) : OfSync id l (.acquire (.entry e))
  | release (e : EntryId) : OfSync id l (.release (.entry e))
  | makeEntry : OfSync id l (.step (.makeEntry id))
  | isInterested : OfSync id l (.step (.isInterested id))
  | findEntry : OfSync id l (.step (.findEntry id))
  | removeEntry : OfSync id l (.step (.removeEntry id))
  | count (event : PassEvent) : OfSync id l (.step (.count event))
  | asks {e : EntryId} {c : Command} (asks : Collected.Asks e c) : OfSync id l c
  | bringsAbout {c : Command} (brings : BringsAbout id l c) : OfSync id l c

/-- Of these commands none asks what was applied. -/
theorem OfSync.syncs {c : Command} (h : OfSync id l c) : Syncs id l c := by
  cases h with
  | asks h => exact syncs_of_worksOn (worksOn_of_asks h)
  | bringsAbout h => exact syncs_of_worksOn h.worksOn
  | acquire | release => trivial
  | makeEntry | isInterested | findEntry | removeEntry | count => rfl

/-- A pass takes no other commands. -/
theorem takes_sync (s : Settings) (id : ResourceId) (l : Limiter) :
    (sync s id l).run.Takes (OfSync id l) := by
  refine Attempt.takes_step_bind .makeEntry fun e => ?_
  refine Program.takes_holding (.acquire e) (.release e) ?_
  refine Attempt.takes_step_bind .isInterested fun wanted => ?_
  refine Attempt.takes_step_bind .findEntry fun current => ?_
  split
  · split
    · exact Attempt.takes_step_bind .removeEntry fun _ => trivial
    · trivial
  · split
    · trivial
    · exact takes_work s (fun _ => .asks) fun _ => .bringsAbout

/-- The pass over a changed limiter looks at what is held, and then takes note of its interest and
makes a pass. -/
theorem takes_reconcile_of {P : Command → Prop} (hlook : ∀ a : Step, a.isLook = true → P (.step a))
    (hadd : P (.step (.addInterest id))) (hsync : (sync s id l).run.Takes P)
    (hkey : keyOf l = .ok id) :
    (reconcile s l).run.Takes P := by
  -- what comes after the look at the entry does not depend on which revision it had
  have hskip : ∀ revision : Option Nat, (skipOrSync s id l revision).run.Takes P := by
    intro revision
    refine Attempt.takes_step_bind (hlook _ rfl) fun last => ?_
    split
    · exact Attempt.takes_lift (Program.takes_step (hlook _ rfl))
    · refine Attempt.takes_step_bind hadd fun _ => ?_
      exact Attempt.takes_noting hsync fun _ => hlook _ rfl
  unfold reconcile
  rw [hkey]
  show (if l.spec.sets.isEmpty then _ else _ : Attempt PassError Unit).run.Takes P
  split
  · exact Attempt.takes_step_bind (hlook _ rfl) fun _ => trivial
  · refine Attempt.takes_step_bind (hlook _ rfl) fun entry => ?_
    cases entry with
    | none => exact hskip none
    | some e => exact Attempt.takes_step_bind (hlook _ rfl) fun held => hskip _

/-- A pass for a change touches neither the index nor the queue. -/
theorem takes_reconcile (s : Settings) (l : Limiter) : (reconcile s l).run.Takes OffDesk := by
  cases hkey : keyOf l with
  | error e =>
    unfold reconcile
    rw [hkey]
    trivial
  | ok id =>
    exact takes_reconcile_of (fun a h => offDesk_of_isLook h) rfl
      ((takes_sync s id l).mono fun _ h => h.syncs.offDesk) hkey

/-- A pass for the metrics takes the commands of a pass, and no others. -/
theorem takes_refresh (s : Settings) (hkey : keyOf l = .ok id) :
    (refresh s l).run.Takes (OfSync id l) := by
  unfold refresh
  rw [hkey]
  refine Attempt.takes_step_bind .isInterested fun (wanted : Bool) => ?_
  cases wanted with
  | false => trivial
  | true =>
    rw [if_pos rfl]
    exact Attempt.takes_noting (takes_sync s id l) .count

/-- The commands of a deletion. -/
inductive OfDelete (id : ResourceId) : Command → Prop where
  | acquire (e : EntryId) : OfDelete id (.acquire (.entry e))
  | release (e : EntryId) : OfDelete id (.release (.entry e))
  | dropInterest : OfDelete id (.step (.dropInterest id))
  | findEntry : OfDelete id (.step (.findEntry id))
  | removeEntry : OfDelete id (.step (.removeEntry id))
  | setApplied : OfDelete id (.step (.setApplied id none))
  | setWritten : OfDelete id (.step (.setWritten id none))
  | count (event : PassEvent) : OfDelete id (.step (.count event))
  | merges {c : Command} (merges : Registry.Merges c) : OfDelete id c

/-- Of the commands of a deletion none notes anything as applied. -/
theorem OfDelete.forgets {c : Command} (h : OfDelete id c) : Forgets c := by
  cases h with
  | merges h => exact forgets_of_merges h
  | acquire | release => trivial
  | _ => rfl

/-- A deletion takes no other commands. -/
theorem takes_delete (s : Settings) (id : ResourceId) : (delete s id).run.Takes (OfDelete id) := by
  have hforget : (forget s id).run.Takes (OfDelete id) := by
    refine Attempt.takes_step_bind .setApplied fun _ => ?_
    refine Attempt.takes_step_bind .setWritten fun _ => ?_
    refine Attempt.takes_noting (Attempt.takes_bind ?_ fun _ => trivial) .count
    exact (Registry.takes_merge s id []).mono fun _ => .merges
  refine Attempt.takes_step_bind .dropInterest fun _ => ?_
  refine Attempt.takes_step_bind .findEntry fun entry => ?_
  cases entry with
  | none => exact hforget
  | some e =>
    refine Attempt.takes_bind (Program.takes_holding (.acquire e) (.release e) ?_) fun _ => hforget
    exact Attempt.takes_step_bind .removeEntry fun _ => trivial

end Pass

end MeshLimiter
