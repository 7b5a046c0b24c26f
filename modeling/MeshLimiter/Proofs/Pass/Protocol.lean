import MeshLimiter.Proofs.Pass.Commands
import MeshLimiter.Proofs.Pass.Phases
import MeshLimiter.Proofs.Program.Protocol
/-!
# The protocol of the two sides

Which commands the two sides of a limiter take, and from which phase to which. A pass begins with
looks that settle whether it is needed, comes to hold the lock of an entry, looks again, and works;
a deletion takes the entry out under its lock and then all that is noted of the limiter.

* **`Pass.Leads`**: the protocol of a side;
* **`Pass.follows_sync`**, **`Pass.follows_reconcile`**, **`Pass.follows_refresh`**,
  **`Pass.follows_delete`**: passes and deletions follow it, whatever they are answered.
-/

namespace MeshLimiter

namespace Registry

/-- A registry that does not exist, or is read as or was written as a document without entries of a
service. -/
def FreeOf (s : Settings) (service : ResourceId) : Option ConfigMap → Prop
  | none => True
  | some c => ∃ r : Registry,
    (ofConfigMap? s c = some r ∨ (c.data.bind fun d => d[textName]?) = some r.toYaml) ∧
      ∀ d ∈ r.descriptors, d.belongsTo service = false

/-- A merge of no entries leaves none of the service. -/
theorem belongsTo_merged_nil {r : Registry} {domain : String} {service : ResourceId} :
    ∀ d ∈ (r.merged domain service []).descriptors, d.belongsTo service = false := by
  intro d hd
  have hmem : d ∈ r.descriptors.filter fun d => !d.belongsTo service := by
    rw [merged, List.append_nil] at hd
    exact hd
  simpa using (List.mem_filter.1 hmem).2

end Registry

namespace Pass

/-- Where a side is: in a phase, or at its end, where it has nothing left to do but to count. -/
abbrev Place := Option Phase

/-- The phase of a deletion once it has looked for the entry. -/
def Phase.ofFound : Option EntryId → Phase
  | some e => found e
  | none => gone .clearing

namespace Stage

/-- The stage of a deletion once it has got the registry. -/
def ofGot : Except ClusterError (Option ConfigMap) → Stage
  | .ok found => read found
  | .error _ => locked

/-- The stage of a deletion once it has replaced the registry. After a failure it may or may not be
replaced. -/
def ofReplaced {α : Type} : Except ClusterError α → Stage
  | .ok _ => freed
  | .error _ => locked

/-- Those at which a deletion knows that the registry has no entry of the limiter. -/
def Knows (F : Option ConfigMap → Prop) : Stage → Prop
  | read found => F found
  | freed => True
  | _ => False

end Stage

/-- Where the commands of a side lead, once they are replied to. -/
inductive Leads (s : Settings) (id : ResourceId) : Side → Protocol Place where
  -- before a pass
  | look {t : Side} {a : Step} {r : a.Reply} (looks : a.isLook = true) :
    Leads s id t (some .outside) (.step a) r (some .outside)
  | addInterest : Leads s id .changes (some .outside) (.step (.addInterest id)) () (some .entering)
  | interested : Leads s id .metrics (some .outside) (.step (.isInterested id)) true
      (some .entering)
  -- a pass
  | makeEntry {t : Side} (e : EntryId) :
    Leads s id t (some .entering) (.step (.makeEntry id)) e (some (.waiting e))
  | acquire {t : Side} {e : EntryId} :
    Leads s id t (some (.waiting e)) (.acquire (.entry e)) () (some (.holding e))
  | isInterested {t : Side} {e : EntryId} (wanted : Bool) :
    Leads s id t (some (.holding e)) (.step (.isInterested id)) wanted (some (.asked e wanted))
  | findEntry {t : Side} {e : EntryId} {wanted : Bool} (current : Option EntryId) :
    Leads s id t (some (.asked e wanted)) (.step (.findEntry id)) current
      (some (.afterLook e wanted current))
  | work {t : Side} {e : EntryId} {c : Command} {r : c.Reply} (works : Works c) :
    Leads s id t (some (.working e)) c r (some (.working e))
  | removeEntry {t : Side} {e : EntryId} :
    Leads s id t (some (.dropping e)) (.step (.removeEntry id)) () (some (.leaving e))
  | release {t : Side} {e : EntryId} {φ : Phase} (ends : φ = .working e ∨ φ = .leaving e) :
    Leads s id t (some φ) (.release (.entry e)) () none
  | count {t : Side} (event : PassEvent) : Leads s id t none (.step (.count event)) () none
  -- a deletion
  | dropInterest : Leads s id .changes (some .outside) (.step (.dropInterest id)) () (some .dropped)
  | lookFor (found : Option EntryId) :
    Leads s id .changes (some .dropped) (.step (.findEntry id)) found (some (.ofFound found))
  | lockToCut {e : EntryId} :
    Leads s id .changes (some (.found e)) (.acquire (.entry e)) () (some (.cutting e))
  | cut {e : EntryId} :
    Leads s id .changes (some (.cutting e)) (.step (.removeEntry id)) () (some (.cut e))
  | unlockCut {e : EntryId} :
    Leads s id .changes (some (.cut e)) (.release (.entry e)) () (some (.gone .clearing))
  | forgetApplied : Leads s id .changes (some (.gone .clearing)) (.step (.setApplied id none)) ()
      (some (.gone .forgetting))
  | forgetWritten : Leads s id .changes (some (.gone .forgetting)) (.step (.setWritten id none)) ()
      (some (.gone .cleared))
  | lockRegistry : Leads s id .changes (some (.gone .cleared)) (.acquire .registry) ()
      (some (.gone .locked))
  | getRegistry (r : Except ClusterError (Option ConfigMap)) :
    Leads s id .changes (some (.gone .locked)) (.step (.call (.configMap s.registry))) r
      (some (.gone (.ofGot r)))
  | replaceRegistry {c : ConfigMap} {new : Registry}
    (free : ∀ d ∈ new.descriptors, d.belongsTo id = false) (r : Except ClusterError Unit) :
    Leads s id .changes (some (.gone (.read (some c))))
      (.step (.call (.replaceConfigMap (new.writtenInto c)))) r (some (.gone (.ofReplaced r)))
  | countGone {stage : Stage} (event : PassEvent) :
    Leads s id .changes (some (.gone stage)) (.step (.count event)) () (some (.gone stage))
  | unlockRegistry {stage : Stage} (knows : stage.Knows (Registry.FreeOf s id)) :
    Leads s id .changes (some (.gone stage)) (.release .registry) () (some (.gone .free))
  | giveUp {stage : Stage} : Leads s id .changes (some (.gone stage)) (.release .registry) () none

/-- A side that has made a pass is at its end, or has found that there was nothing to do. -/
def Passed (place : Place) : Prop :=
  place = none ∨ place = some .outside

variable {s : Settings} {id : ResourceId} {t : Side}

/-! ## Passes

A pass follows the protocol from its first command to its last, whatever it is answered. -/

/-- **A pass follows the protocol** once it is settled that it is needed. -/
theorem follows_sync (t : Side) (l : Limiter) :
    (sync s id l).run.Follows (Leads s id t) (fun _ φ => φ = none) (some .entering) := by
  refine Attempt.follows_step_bind fun (e : EntryId) => ⟨_, .makeEntry e, ?_⟩
  refine Attempt.follows_holding .acquire ?_
  refine Attempt.follows_step_bind fun (wanted : Bool) => ⟨_, .isInterested wanted, ?_⟩
  refine Attempt.follows_step_bind fun (current : Option EntryId) => ⟨_, .findEntry current, ?_⟩
  have hleave : ∀ y : Except PassError Unit, (Program.done y).Follows (Leads s id t)
      (fun _ φ => ∃ φ', Leads s id t φ (.release (.entry e)) () φ' ∧ φ' = none)
        (some (.leaving e)) :=
    fun _ => ⟨none, .release (.inr rfl), rfl⟩
  by_cases hcurrent : current = some e
  · rw [Phase.afterLook_of_eq hcurrent]
    cases wanted with
    | false =>
      -- the limiter is of no interest, so the entry is taken out
      dsimp only
      rw [if_pos (by decide : (!false) = true), if_pos hcurrent]
      exact Attempt.follows_step_bind fun _ => ⟨_, .removeEntry, hleave _⟩
    | true =>
      rw [if_neg (by decide : ¬ (!true) = true), if_neg fun hne => hne hcurrent]
      exact (takes_work_works s e).follows (fun _ _ => .work) fun _ =>
        ⟨none, .release (.inl rfl), rfl⟩
  · -- the entry is another by now, or there is none
    rw [Phase.afterLook_of_ne hcurrent]
    cases wanted with
    | false =>
      dsimp only
      rw [if_pos (by decide : (!false) = true), if_neg hcurrent]
      exact hleave _
    | true =>
      rw [if_neg (by decide : ¬ (!true) = true), if_pos hcurrent]
      exact hleave _

/-- A pass that is remembered follows it, too: remembering comes after the work. -/
theorem follows_recorded (t : Side) (trigger : Trigger) (l : Limiter) :
    (recorded trigger (sync s id l)).run.Follows (Leads s id t) (fun _ => Passed)
      (some .entering) := by
  refine (Attempt.follows_noting (follows_sync t l) fun x φ e hφ => ?_).mono fun _ _ => .inl
  subst hφ
  exact .count e

/-- The pass over the metrics. -/
theorem follows_refresh {l : Limiter} (hkey : keyOf l = .ok id) :
    (refresh s l).run.Follows (Leads s id .metrics) (fun _ => Passed) (some .outside) := by
  unfold refresh
  rw [hkey]
  refine Attempt.follows_step_bind fun (wanted : Bool) => ?_
  cases wanted with
  | false => exact ⟨_, .look rfl, .inr rfl⟩
  | true => exact ⟨_, .interested, follows_recorded .metrics .metrics l⟩

/-- The pass over a changed limiter. -/
theorem follows_reconcile {l : Limiter} (hkey : keyOf l = .ok id) :
    (reconcile s l).run.Follows (Leads s id .changes) (fun _ => Passed) (some .outside) := by
  -- whatever was remembered, the pass is passed over or taken
  have hskip : ∀ revision : Option Nat,
      (skipOrSync s id l revision).run.Follows (Leads s id .changes)
      (fun _ => Passed) (some .outside) := by
    intro revision
    refine Attempt.follows_step_bind fun last => ⟨_, .look rfl, ?_⟩
    split
    · exact fun _ => ⟨_, .look rfl, .inr rfl⟩
    · exact Attempt.follows_step_bind fun _ => ⟨_, .addInterest, follows_recorded .changes .spec l⟩
  unfold reconcile
  rw [hkey]
  show (if l.spec.sets.isEmpty then _ else _ : Attempt PassError Unit).run.Follows _ _ _
  split
  · exact Attempt.follows_step_bind fun _ => ⟨_, .look rfl, .inr rfl⟩
  · refine Attempt.follows_step_bind fun (entry : Option EntryId) => ⟨_, .look rfl, ?_⟩
    cases entry with
    | none => exact hskip none
    | some e => exact Attempt.follows_step_bind fun held => ⟨_, .look rfl, hskip _⟩

/-! ## The deletion

It takes the interest away, then the entry, and then what is noted. -/

/-- How a deletion ends. -/
def Deleted (y : Except PassError Unit) (φ : Place) : Prop :=
  (y = .ok () ∧ φ = some (.gone .free)) ∨ (∃ e, y = .error e) ∧ φ = none

/-- The entries of the limiter are taken out of the registry, while its lock is held. -/
theorem follows_merge :
    (Registry.merge s id []).run.Follows (Leads s id .changes)
      (fun y φ => ((∃ b, y = .ok b) ∧ φ = some (.gone .free)) ∨ (∃ e, y = .error e) ∧ φ = none)
      (some (.gone .cleared)) := by
  have hroute : Registry.Route s id [] (Leads s id .changes)
      (fun y φ => ((∃ b, y = .ok b) ∧ φ = some (.gone .free)) ∨ (∃ e, y = .error e) ∧ φ = none)
      (some (.gone .cleared)) (some (.gone .locked)) (fun r => some (.gone (.ofGot r)))
      (fun _ r => some (.gone (.ofReplaced r))) :=
    { lock := .lockRegistry
      get := .getRegistry
      write := fun found c r hunsettled hwrite => by
        cases found with
        | none => exact absurd rfl hunsettled
        | some m =>
          obtain ⟨current, -, rfl⟩ := Option.map_eq_some_iff.1 hwrite
          exact .replaceRegistry Registry.belongsTo_merged_nil r
      count := fun _ _ _ => .countGone _
      unread := fun _ => ⟨_, .giveUp, .inr ⟨⟨_, rfl⟩, rfl⟩⟩
      unreadable := fun _ _ => ⟨_, .giveUp, .inr ⟨⟨_, rfl⟩, rfl⟩⟩
      settled := fun found hsettled => by
        refine ⟨_, .unlockRegistry ?_, .inl ⟨⟨false, rfl⟩, rfl⟩⟩
        -- what was got is free of entries already
        cases found with
        | none => trivial
        | some m =>
          obtain ⟨current, hread, hsame⟩ := hsettled
          refine ⟨current, .inl hread, ?_⟩
          rw [← hsame]
          exact Registry.belongsTo_merged_nil
      failed := fun _ _ => ⟨_, .giveUp, .inr ⟨⟨_, rfl⟩, rfl⟩⟩
      wrote := fun _ _ => ⟨_, .unlockRegistry trivial, .inl ⟨⟨true, rfl⟩, rfl⟩⟩ }
  exact hroute.follows

/-- It takes out what is noted: what was applied, the metrics, and the entries in the registry. -/
theorem follows_forget :
    (forget s id).run.Follows (Leads s id .changes) Deleted (some (.gone .clearing)) := by
  refine Attempt.follows_step_bind fun _ => ⟨_, .forgetApplied, ?_⟩
  refine Attempt.follows_step_bind fun _ => ⟨_, .forgetWritten, ?_⟩
  refine Attempt.follows_noting (Attempt.follows_bind (follows_merge.mono fun y φ hy => ?_)) ?_
  · rcases hy with ⟨⟨b, rfl⟩, rfl⟩ | ⟨⟨e, rfl⟩, rfl⟩
    · exact .inl ⟨rfl, rfl⟩
    · exact .inr ⟨⟨e, rfl⟩, rfl⟩
  · rintro y φ e (⟨-, rfl⟩ | ⟨-, rfl⟩)
    · exact .countGone e
    · exact .count e

/-- **A deletion follows the protocol.** -/
theorem follows_delete :
    (delete s id).run.Follows (Leads s id .changes) Deleted (some .outside) := by
  refine Attempt.follows_step_bind fun _ => ⟨_, .dropInterest, ?_⟩
  refine Attempt.follows_step_bind fun (found : Option EntryId) => ⟨_, .lookFor found, ?_⟩
  cases found with
  | none => exact follows_forget
  | some e =>
    refine Attempt.follows_bind (Attempt.follows_holding .lockToCut ?_)
    exact Attempt.follows_step_bind fun _ => ⟨_, .cut, _, .unlockCut, follows_forget⟩

end Pass

end MeshLimiter
