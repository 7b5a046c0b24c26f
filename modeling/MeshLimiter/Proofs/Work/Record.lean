import MeshLimiter.Proofs.Work.Desk
/-!
# What goes on record

Passes go by what was last applied to a limiter. Workers look limiters up in the index, ask what was
last applied, and note at the end of a pass what they have applied. All that they find there was put
there before: a limiter by the watch, and what was applied by the last pass that succeeded.

* **`World.Minds`**: how steps are answered while only passes note what was applied;
* **`Recall.lastSuccess`**: the limiter of the last pass that succeeded since the limiter was last
  deleted;
* **`Recall.Faithful`**: every step on record is explained by what went before;
* **`Recall.Standing`**, **`Recall.Standing.did`**: all of it stands, and a step that is explained
  leaves it so.
-/

namespace MeshLimiter

open Interleaving
open Delivery (Hand Past)

namespace World

/-- How a step is answered where the desk is left to the watch and the workers, and what was applied
to the passes, while all else may change by itself. A call may fail. -/
inductive Minds (w : World) : (a : Step) → a.Reply → World → Prop where
  | performed {v : World} (desk : v.desk = w.desk) (applied : v.memory.applied = w.memory.applied)
    (a : Step) : Minds w a (v.perform a).1 (v.perform a).2
  | failed {v : World} (desk : v.desk = w.desk) (applied : v.memory.applied = w.memory.applied)
    (c : ClusterCall) (e : ClusterError) : Minds w (.call c) (.error e) v

variable {w w' : World} {id k : ResourceId} {a : Step} {r : a.Reply}

/-- So the desk is served by it. -/
theorem Minds.serves (h : w.Minds a r w') : w.Serves a r w' := by
  cases h with
  | performed desk _ => exact .performed desk a
  | failed desk _ c e => exact .failed desk c e

/-- No step but an event of the watch changes which limiters are in the index. -/
theorem limiters_perform (w : World) (a : Step) :
    (w.perform a).2.desk.limiters = w.desk.limiters := by
  cases a with
  | tryPop name | push name | finish name => cases name <;> rfl
  | call c => exact congrArg Desk.limiters (w.desk_call c)
  | sendQueries texts => exact congrArg Desk.limiters (desk_note_queries texts w)
  | _ => rfl

/-- No step of a worker changes the index. -/
theorem Minds.limiters (h : w.Minds a r w') : w'.desk.limiters = w.desk.limiters := by
  cases h with
  | performed desk _ => rw [limiters_perform, desk]
  | failed desk _ => rw [desk]

/-- A call of the cluster is not remembered. -/
theorem memory_call (w : World) (c : ClusterCall) : (w.call c).2.memory = w.memory := by
  unfold World.call
  dsimp only
  split
  · rfl
  · split <;> rfl

theorem memory_note_queries (texts : List String) (w : World) :
    (texts.foldl (fun w t => w.note ("query " ++ t)) w).memory = w.memory := by
  induction texts generalizing w with
  | nil => rfl
  | cons t ts ih => exact ih _

/-- What was applied to a limiter after a step. -/
def appliedAfter (m : Std.ExtTreeMap ResourceId Applied) (id : ResourceId) : Step → Option Applied
  | .setApplied k x => if k = id then x else m[id]?
  | _ => m[id]?

/-- The world does what the table of steps says. -/
theorem applied_perform (w : World) (a : Step) (id : ResourceId) :
    (w.perform a).2.memory.applied[id]? = appliedAfter w.memory.applied id a := by
  cases a with
  | setApplied k x =>
    show (setKey w.memory.applied k x)[id]? = if k = id then x else w.memory.applied[id]?
    cases x with
    | some x => simp [setKey, Std.ExtTreeMap.getElem?_insert]
    | none => simp [setKey, Std.ExtTreeMap.getElem?_erase]
  | tryPop name | push name | finish name => cases name <;> rfl
  | call c => exact congrArg (·.applied[id]?) (w.memory_call c)
  | sendQueries texts => exact congrArg (·.applied[id]?) (memory_note_queries texts w)
  | _ => rfl

/-- Whatever a step is, its own note is the only one that it makes. -/
theorem Minds.applied (h : w.Minds a r w') (id : ResourceId) :
    w'.memory.applied[id]? = appliedAfter w.memory.applied id a := by
  cases h with
  | performed _ applied => rw [applied_perform, applied]
  | failed _ applied => rw [applied]; rfl

/-- The last note is what is found. -/
theorem Minds.findApplied {last : Option Applied} (h : w.Minds (.findApplied id) last w') :
    last = w.memory.applied[id]? := by
  cases h with
  | performed _ applied => rw [← applied]; rfl

end World

namespace Recall

/-! ## What has happened

A hand is the watch or a worker. What each of them has last found, asked and noted is read off the
steps of all. -/

/-- The limiters that the watch was told of. -/
def given (past : Past) : List Limiter :=
  past.flatMap fun
    | .began _ (some e) => e.limiters
    | _ => []

/-- A limiter that the watch has put into the index under a key. -/
def Given (id : ResourceId) (l : Limiter) (past : Past) : Prop :=
  l ∈ given past ∧ LimiterIndex.Takes l id

/-- What a hand has found in the index the last time that it looked. -/
def lastFound (t : Hand) : Past → Option (ResourceId × Option Limiter)
  | .did u ⟨.findLimiter k, (found : Option Limiter)⟩ :: past =>
    if u = t then some (k, found) else lastFound t past
  | _ :: past => lastFound t past
  | [] => none

/-- The revision of the material that a hand has seen the last time that it looked for an entry. -/
def lastRevision (t : Hand) : Past → Option Nat
  | .did u ⟨.findEntry _, _⟩ :: past => if u = t then none else lastRevision t past
  | .did u ⟨.readEntry _, (held : Entry)⟩ :: past =>
    if u = t then some held.revision else lastRevision t past
  | _ :: past => lastRevision t past
  | [] => none

/-- The last step of a hand. -/
def lastStep (t : Hand) : Past → Option Event
  | .did u e :: past => if u = t then some e else lastStep t past
  | .began _ _ :: past => lastStep t past
  | [] => none

/-- What was last applied to a limiter; nothing if it was deleted since. -/
def lastApplied (id : ResourceId) : Past → Option Applied
  | .did _ ⟨.setApplied k x, _⟩ :: past => if k = id then x else lastApplied id past
  | _ :: past => lastApplied id past
  | [] => none

/-- The limiter for which a pass succeeded last, and the revision of its material; none if the
limiter was deleted since. A pass ends by noting what it has applied, and is for the limiter that
its hand had found. -/
def lastSuccess (id : ResourceId) : Past → Option (Limiter × Nat)
  | .did t ⟨.setApplied k x, _⟩ :: past =>
    if k = id then
      match lastFound t past, x with
      | some (_, some l), some applied => some (l, applied.revision)
      | _, _ => none
    else lastSuccess id past
  | _ :: past => lastSuccess id past
  | [] => none

variable {past past' : Past} {t u : Hand} {id k : ResourceId} {l : Limiter} {e : Event} {a : Step}
  {r : a.Reply}

/-- What was given once stays given. -/
theorem Given.cons {o : Occurrence Hand (Option (IndexEvent Limiter))} (h : Given id l past) :
    Given id l (o :: past) :=
  ⟨List.mem_append_right _ h.1, h.2⟩

@[simp] theorem lastFound_began (note : Option (IndexEvent Limiter)) :
    lastFound t (.began u note :: past) = lastFound t past := rfl

@[simp] theorem lastRevision_began (note : Option (IndexEvent Limiter)) :
    lastRevision t (.began u note :: past) = lastRevision t past := rfl

@[simp] theorem lastStep_began (note : Option (IndexEvent Limiter)) :
    lastStep t (.began u note :: past) = lastStep t past := rfl

/-- What others do is not what a hand does. -/
theorem lastFound_of_ne (hu : u ≠ t) : lastFound t (.did u ⟨a, r⟩ :: past) = lastFound t past := by
  cases a with
  | findLimiter k => exact if_neg hu
  | _ => rfl

/-- Steps of other hands do not count. -/
theorem lastRevision_of_ne (hu : u ≠ t) :
    lastRevision t (.did u ⟨a, r⟩ :: past) = lastRevision t past := by
  cases a with
  | findEntry k => exact if_neg hu
  | readEntry e => exact if_neg hu
  | _ => rfl

theorem lastStep_of_ne (hu : u ≠ t) : lastStep t (.did u e :: past) = lastStep t past :=
  if_neg hu

theorem lastStep_self : lastStep t (.did t e :: past) = some e :=
  if_pos rfl

/-- A step that is no look leaves what was found. -/
theorem lastFound_self (ha : ∀ k, a ≠ .findLimiter k) :
    lastFound t (.did t ⟨a, r⟩ :: past) = lastFound t past := by
  cases a with
  | findLimiter k => exact absurd rfl (ha k)
  | _ => rfl

/-- It leaves the revision unless it looks for an entry, or reads one. -/
theorem lastRevision_self (hfind : ∀ k, a ≠ .findEntry k) (hread : ∀ e, a ≠ .readEntry e) :
    lastRevision t (.did t ⟨a, r⟩ :: past) = lastRevision t past := by
  cases a with
  | findEntry k => exact absurd rfl (hfind k)
  | readEntry e => exact absurd rfl (hread e)
  | _ => rfl

/-! ## Steps that are explained

A hand takes a step because of what it has found. So whatever is noted as applied goes back to a
limiter that the watch has given. -/

/-- The step in which a limiter is passed over. -/
def skip : Step :=
  .count (.pass .spec .unchanged)

/-- Why a hand takes a step, and why it is replied as it is: what it finds in the index was put
there by the watch; what it is told was applied last is on record; what it notes as applied is the
limiter that it had found; and after it has asked what was applied, it passes the limiter over
exactly if it is as applied. -/
structure Explained (past : Past) (t : Hand) (e : Event) : Prop where
  found : ∀ id l, e = ⟨.findLimiter id, some l⟩ → Given id l past
  told : ∀ id last, e = ⟨.findApplied id, last⟩ → last = lastApplied id past
  noted : ∀ id applied u, e = ⟨.setApplied id (some applied), u⟩ →
    ∃ l, lastFound t past = some (id, some l) ∧
    applied.generation = l.metadata.generation ∧ applied.spec = l.spec
  decided : ∀ id last, lastStep t past = some ⟨.findApplied id, last⟩ → ∃ l,
    lastFound t past = some (id, some l) ∧
      (e.step = skip ↔ Pass.isApplied last l (lastRevision t past) = true)

/-- Every step was explained when it was taken. -/
inductive Faithful : Past → Prop where
  | nil : Faithful []
  | began {t : Hand} {note : Option (IndexEvent Limiter)} {past : Past} (h : Faithful past) :
    Faithful (.began t note :: past)
  | did {t : Hand} {e : Event} {past : Past} (h : Faithful past) (explained : Explained past t e) :
    Faithful (.did t e :: past)

/-- The beginning of a faithful record is faithful. -/
theorem Faithful.of_append {later : Past} (h : Faithful (later ++ past)) : Faithful past := by
  induction later with
  | nil => exact h
  | cons o later ih =>
    refine ih ?_
    cases h with
    | began h => exact h
    | did h _ => exact h

/-- Each step of a faithful record is explained by those before it. -/
theorem Faithful.explained {later : Past} (h : Faithful (later ++ .did t e :: past)) :
    Explained past t e := by
  cases h.of_append with
  | did _ explained => exact explained

/-- What was last applied is the limiter of the last pass that succeeded. -/
theorem Faithful.lastSuccess_of_lastApplied (h : Faithful past) (id : ResourceId) :
    (lastApplied id past = none ∧ lastSuccess id past = none) ∨
      ∃ applied l, lastApplied id past = some applied ∧
        lastSuccess id past = some (l, applied.revision) ∧
        applied.generation = l.metadata.generation ∧ applied.spec = l.spec := by
  induction h with
  | nil => exact .inl ⟨rfl, rfl⟩
  | began _ ih => exact ih
  | @did t e past _ explained ih =>
    obtain ⟨a, r⟩ := e
    cases a with
    | setApplied k x =>
      -- only such a note moves the one and the other, and it moves them together
      unfold lastApplied lastSuccess
      by_cases hk : k = id
      · rw [if_pos hk, if_pos hk]
        cases x with
        | none =>
          refine .inl ⟨rfl, ?_⟩
          split <;> simp_all
        | some applied =>
          obtain ⟨l, hl, hgeneration, hspec⟩ := explained.noted k applied r rfl
          refine .inr ⟨applied, l, rfl, ?_, hgeneration, hspec⟩
          rw [hl]
      · rw [if_neg hk, if_neg hk]
        exact ih
    | _ => exact ih

/-- Whoever had a limiter applied had found it in the index. -/
theorem Faithful.given_of_lastFound (h : Faithful past)
    (hl : lastFound t past = some (id, some l)) :
    Given id l past := by
  induction h with
  | nil => cases hl
  | began _ ih => exact (ih hl).cons
  | @did u e past _ explained ih =>
    obtain ⟨a, r⟩ := e
    -- only looks into the index change what was found
    cases a with
    | findLimiter k =>
      unfold lastFound at hl
      split at hl
      · obtain ⟨rfl, rfl⟩ := Prod.mk.inj (Option.some.inj hl)
        exact (explained.found k l rfl).cons
      · exact (ih hl).cons
    | _ => exact (ih hl).cons

theorem Faithful.given_of_lastSuccess {revision : Nat} (h : Faithful past)
    (hl : lastSuccess id past = some (l, revision)) : Given id l past := by
  induction h with
  | nil => cases hl
  | began _ ih => exact (ih hl).cons
  | @did u e past hpast explained ih =>
    obtain ⟨a, r⟩ := e
    -- only notes of what was applied change which pass was the last to succeed
    cases a with
    | setApplied k x =>
      unfold lastSuccess at hl
      split at hl
      · next hk =>
        subst hk
        cases x with
        -- a note that nothing is applied forgets it
        | none => split at hl <;> simp_all
        | some applied =>
          obtain ⟨l', hl', -⟩ := explained.noted k applied r rfl
          rw [hl'] at hl
          obtain ⟨rfl, -⟩ := Prod.mk.inj (Option.some.inj hl)
          exact (hpast.given_of_lastFound hl').cons
      · exact (ih hl).cons
    | _ => exact (ih hl).cons

/-! ## All of it stands

A hand is at its work, compares a limiter, or has been told what was last applied. In each phase it
knows what it found last. -/

/-- Where a hand is. -/
inductive Phase where
  /-- It does its work, with what it may have found in the index. -/
  | working (found : Option (ResourceId × Option Limiter))
  /-- It has looked at the material of a limiter, to ask next what was last applied. -/
  | comparing (id : ResourceId) (l : Limiter) (revision : Option Nat)
  /-- It was told what was last applied. -/
  | told (id : ResourceId) (l : Limiter) (revision : Option Nat) (last : Option Applied)

/-- A hand has not just asked what was last applied. -/
def Unasked (t : Hand) (past : Past) : Prop :=
  ∀ id last, lastStep t past ≠ some ⟨.findApplied id, last⟩

/-- What is so in a phase. -/
def Phase.Holds (t : Hand) (past : Past) : Phase → Prop
  | working found => Unasked t past ∧ ∀ x ∈ found, lastFound t past = some x
  | comparing id l revision =>
    Unasked t past ∧ lastFound t past = some (id, some l) ∧ lastRevision t past = revision
  | told id l revision last =>
    lastStep t past = some ⟨.findApplied id, last⟩ ∧ lastFound t past = some (id, some l) ∧
      lastRevision t past = revision

/-- What a hand knows does not depend on the others. -/
theorem Phase.Holds.other {φ : Phase} (h : φ.Holds u past) (hu : t ≠ u) :
    φ.Holds u (.did t ⟨a, r⟩ :: past) := by
  cases φ with
  | working found =>
    refine ⟨fun id last => ?_, fun x hx => ?_⟩
    · rw [lastStep_of_ne hu]
      exact h.1 id last
    · rw [lastFound_of_ne hu]
      exact h.2 x hx
  | comparing id l revision =>
    refine ⟨fun id last => ?_, ?_⟩
    · rw [lastStep_of_ne hu]
      exact h.1 id last
    · rw [lastFound_of_ne hu, lastRevision_of_ne hu]
      exact h.2
  | told id l revision last =>
    unfold Phase.Holds
    rw [lastStep_of_ne hu, lastFound_of_ne hu, lastRevision_of_ne hu]
    exact h

theorem Phase.Holds.began {φ : Phase} {note : Option (IndexEvent Limiter)} (h : φ.Holds u past) :
    φ.Holds u (.began t note :: past) := by
  cases φ <;> exact h

/-- Who takes another step has not just asked. -/
theorem unasked_did (ha : ∀ id, a ≠ .findApplied id) : Unasked t (.did t ⟨a, r⟩ :: past) := by
  intro id last h
  rw [lastStep_self] at h
  cases Option.some.inj h
  exact ha id rfl

/-- What holds between the steps of all hands. -/
structure Standing (σ : Shared Hand (Option (IndexEvent Limiter))) (ph : Hand → Phase) : Prop where
  faithful : Faithful σ.past
  applied : ∀ id, σ.world.memory.applied[id]? = lastApplied id σ.past
  known : ∀ id l, σ.world.desk.limiters.get? id = some l → Given id l σ.past
  phases : ∀ t, (ph t).Holds t σ.past

variable {σ : Shared Hand (Option (IndexEvent Limiter))} {ph : Hand → Phase} {w : World} {φ : Phase}

theorem lastApplied_did : lastApplied id (.did t ⟨a, r⟩ :: past)
    = match a with
      | .setApplied k x => if k = id then x else lastApplied id past
      | _ => lastApplied id past := by
  cases a <;> rfl

/-- **A step that is explained leaves all standing.** What a hand finds, and is told, needs no
explanation beyond what stands already. -/
theorem Standing.did (h : Standing σ ph) (hw : σ.world.Minds a r w)
    (noted : ∀ id applied, a = .setApplied id (some applied) →
      ∃ l, lastFound t σ.past = some (id, some l) ∧
      applied.generation = l.metadata.generation ∧ applied.spec = l.spec)
    (decided : ∀ id last, lastStep t σ.past = some ⟨.findApplied id, last⟩ → ∃ l,
      lastFound t σ.past = some (id, some l) ∧
        (a = skip ↔ Pass.isApplied last l (lastRevision t σ.past) = true))
    (hφ : φ.Holds t (.did t ⟨a, r⟩ :: σ.past)) :
    Standing (σ.after t ⟨a, r⟩ w) (Function.update ph t φ) where
  faithful := by
    refine .did h.faithful ⟨?_, ?_, ?_, decided⟩
    · -- what is found is in the index, and all of that was given
      intro id l heq
      cases heq
      exact h.known id l hw.serves.findLimiter.1.symm
    · intro id last heq
      cases heq
      rw [hw.findApplied, h.applied]
    · intro id applied u heq
      cases heq
      exact noted id applied rfl
  applied id := by
    show w.memory.applied[id]? = lastApplied id (.did t ⟨a, r⟩ :: σ.past)
    rw [hw.applied, lastApplied_did]
    cases a with
    | setApplied k x =>
      show (if k = id then x else σ.world.memory.applied[id]?) = if k = id then x
        else lastApplied id σ.past
      rw [h.applied]
    | _ => exact h.applied id
  known id l hl := by
    refine (h.known id l ?_).cons
    rw [← hl]
    exact congrArg (fun x : LimiterIndex => x.get? id) hw.limiters.symm
  phases u := by
    -- the other hands stay in their phases, since those speak of their own steps only
    by_cases hu : u = t
    · subst hu
      rw [Function.update_self]
      exact hφ
    · rw [Function.update_of_ne hu]
      exact (h.phases u).other (Ne.symm hu)

/-- **What begins leaves all standing**, if it changes nothing but the index, and that as an event
does. -/
theorem Standing.began {note : Option (IndexEvent Limiter)} (h : Standing σ ph)
    (happlied : w.memory.applied = σ.world.memory.applied)
    (hknown : ∀ id l, w.desk.limiters.get? id = some l → σ.world.desk.limiters.get? id = some l ∨
      ∃ e, note = some e ∧ l ∈ e.limiters ∧ LimiterIndex.Takes l id) :
    Standing (σ.started t note w) ph where
  faithful := .began h.faithful
  applied id := (congrArg (·[id]?) happlied).trans (h.applied id)
  known id l hl := by
    rcases hknown id l hl with hl | ⟨e, rfl, hmem, htakes⟩
    · exact (h.known id l hl).cons
    · exact ⟨List.mem_append_left _ hmem, htakes⟩
  phases u := (h.phases u).began

end Recall

end MeshLimiter
