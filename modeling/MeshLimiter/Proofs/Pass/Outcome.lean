import MeshLimiter.Proofs.Pass.Apart
/-!
# What a pass over a changed limiter has done that succeeds

A party's own events are a run of what it has begun on, whatever the others do meanwhile. So what
such a pass has done if it succeeds is read off its program: the limiter was passed over as
unchanged, or the pass has got an entry and taken its looks, and it has noted the limiter exactly if
these have found all as it should be.

* **`Interleaving.Reaches.runs_since`**: what a party has done is a run of its program;
* **`Pass.outcome_of_runs_reconcile`**: what the pass over a changed limiter does if it succeeds;
* **`Pass.Looked.outcome`**: when it has noted its limiter, and when it has done nothing for it.
-/

namespace MeshLimiter

open Interleaving

namespace Interleaving

variable {τ ν α : Type} [DecidableEq τ] {G : Rules τ ν α} {x y : Parties τ ν α} {t : τ}

/-- Any replies, in a world that stays as it is. -/
def anyReply : Answering :=
  fun w _ _ w' => w' = w

/-- **What a party has done is a run of what it has begun on**, as far as it has come: with a run of
what is left to do it is a run of the whole. -/
theorem Reaches.runs_since {note : ν} {p : Program α} (hG : ∀ note w p w', ¬ G.begins t note w p w')
    (h : Reaches G (x.begun t note p) y) {w : World} {tr : Trace} {a : α}
    (hleft : Program.Runs anyReply (y.left t) w tr a w) :
    Program.Runs anyReply p w ((sinceBegan t y.shared.past).reverse ++ tr) a w := by
  -- by induction on the moves, the last one first: what is left is run after what was done
  induction h generalizing tr with
  | refl =>
    have hpast : sinceBegan t (x.begun t note p).shared.past = [] := if_pos rfl
    have hbegun : Program.Runs anyReply (Function.update x.left t p t) w tr a w := hleft
    rw [Function.update_self] at hbegun
    rw [hpast]
    exact hbegun
  | snoc _ move ih =>
    cases move with
    | @act u σ σ' left c next r asks performs =>
      by_cases hu : u = t
      · subst hu
        have hnext : Program.Runs anyReply (Function.update left u (next r) u) w tr a w := hleft
        rw [Function.update_self] at hnext
        have hwait : (∀ a, c ≠ .step a) → Program.Runs anyReply (left u) w tr a w := by
          intro hc
          rw [asks]
          exact .wait hc rfl hnext
        cases performs with
        | @step b r v answer =>
          have hpast : sinceBegan u (σ.after u ⟨b, r⟩ v).past
              = ⟨b, r⟩ :: sinceBegan u σ.past := if_pos rfl
          have hrun : Program.Runs anyReply (left u) w (⟨b, r⟩ :: tr) a w := by
            rw [asks]
            exact .step rfl hnext
          show Program.Runs anyReply p w ((sinceBegan u (σ.after u ⟨b, r⟩ v).past).reverse ++ tr) a
              w
          rw [hpast, List.reverse_cons, List.append_assoc]
          exact ih hrun
        | acquire | release | await | sleepUntil | retryAfter =>
          refine ih (hwait fun _ heq => ?_)
          cases heq
      · -- another party's move adds nothing to what this one has done
        have hpast : sinceBegan t σ'.past = sinceBegan t σ.past := by
          cases performs with
          | step => exact if_neg hu
          | _ => rfl
        have hother : Program.Runs anyReply (Function.update left u (next r) t) w tr a w := hleft
        rw [Function.update_of_ne (Ne.symm hu)] at hother
        show Program.Runs anyReply p w ((sinceBegan t σ'.past).reverse ++ tr) a w
        rw [hpast]
        exact ih hother
    | @start u note' σ left a' p' w' idle begins =>
      have hu : u ≠ t := by
        rintro rfl
        exact hG _ _ _ _ begins
      have hpast : sinceBegan t (σ.started u note' w').past = sinceBegan t σ.past := if_neg hu
      have hother : Program.Runs anyReply (Function.update left u p' t) w tr a w := hleft
      rw [Function.update_of_ne hu.symm] at hother
      show Program.Runs anyReply p w ((sinceBegan t (σ.started u note' w').past).reverse ++ tr) a w
      rw [hpast]
      exact ih hother
    | outside happens => exact ih hleft

end Interleaving

namespace Step

/-- Steps that neither ask anything of the cluster nor note anything of a limiter. -/
def isSlight : Step → Bool
  | findEntry _ | readEntry _ | makeEntry _ | removeEntry _ => true
  | isInterested _ | addInterest _ | findApplied _ | count _ => true
  | _ => false

/-- Steps that count a changed limiter as unchanged. -/
def countsUnchanged : Step → Bool
  | count (.pass .spec .unchanged) => true
  | _ => false

end Step

namespace Pass

open Program (Runs runs_done)

variable {R : Answering} {s : Settings} {id : ResourceId} {l : Limiter} {w w' : World} {tr : Trace}

/-! ## What a pass does that succeeds

Where a step is not slight, it is one that a pass takes for its limiter. -/

/-- The limiter was noted as applied, with its generation and its specification. -/
def Recorded (id : ResourceId) (l : Limiter) (events : List Event) : Prop :=
  ∃ revision, (⟨.setApplied id (some
    { generation := l.metadata.generation, spec := l.spec, revision }), ()⟩ : Event) ∈ events

/-- What is noted among some events is noted among more. -/
theorem Recorded.mono {events events' : List Event} (h : Recorded id l events)
    (hsub : ∀ event ∈ events, event ∈ events') : Recorded id l events' := by
  obtain ⟨revision, hmem⟩ := h
  exact ⟨revision, hsub _ hmem⟩

/-- Slight steps note nothing. -/
theorem not_recorded_of_isSlight {events : List Event}
    (h : ∀ event ∈ events, event.step.isSlight = true) : ¬ Recorded id l events := by
  rintro ⟨revision, hmem⟩
  cases h _ hmem

/-- A pass that comes to its end with success has noted its limiter. -/
theorem recorded_of_runs_conclude {c : Collected} {registered : Except PassError Bool}
    {a : Applying}
    (h : Runs R (conclude id l c registered a).run w tr (.ok ()) w') : Recorded id l tr := by
  unfold conclude at h
  cases registered with
  | error e =>
    obtain ⟨-, hy, -⟩ := Attempt.runs_throw_bind.1 h
    cases hy
  | ok b =>
    dsimp only at h
    split at h
    · obtain ⟨-, hy, -⟩ := Attempt.runs_throw_bind.1 h
      cases hy
    · obtain ⟨u, v, rest, -, rfl, -⟩ := Attempt.runs_step_bind.1 h
      exact ⟨c.revision, List.mem_cons_self⟩

/-- A pass that succeeds once its metrics are collected has noted its limiter. -/
theorem recorded_of_runs_bringAbout {c : Collected}
    (h : Runs R (bringAbout s id l c).run w tr (.ok ()) w') : Recorded id l tr := by
  unfold bringAbout at h
  dsimp only at h
  obtain ⟨tr₁, registered, w₁, rest₁, -, h₁, rfl⟩ := Attempt.runs_lift_bind.1 h
  obtain ⟨written, w₂, rest₂, -, rfl, h₂⟩ := Attempt.runs_step_bind.1 h₁
  obtain ⟨tr₂, a, w₃, rest₃, -, h₃, rfl⟩ := Attempt.runs_lift_bind.1 h₂
  obtain ⟨u, w₄, tr₃, -, rfl, h₄⟩ := Attempt.runs_step_bind.1 h₃
  -- the status is written first if it has changed
  have hclose : Recorded id l tr₃ := by
    split at h₄
    · obtain ⟨r, v, rest, -, rfl, ⟨x, rfl, hconclude⟩ | ⟨e, -, hy, -⟩⟩ :=
        Attempt.runs_call_bind.1 h₄
      · exact (recorded_of_runs_conclude hconclude).mono fun _ => List.mem_cons_of_mem _
      · cases hy
    · exact recorded_of_runs_conclude h₄
  refine hclose.mono fun event hevent => ?_
  simp [hevent]

/-- A pass has got an entry and taken its two looks; then it has noted its limiter, or has done
nothing but to take the entry out again. -/
def Looked (id : ResourceId) (l : Limiter) (tr : Trace) : Prop :=
  ∃ (before rest : Trace) (e : EntryId) (wanted : Bool) (current : Option EntryId),
    tr = before ++ ⟨.makeEntry id, e⟩ :: ⟨.isInterested id, wanted⟩ ::
      ⟨.findEntry id, current⟩ :: rest ∧
    (∀ event ∈ before, event.step.isSlight = true ∧ event.step ≠ .makeEntry id) ∧
    (∀ event ∈ rest, event.step ≠ .findEntry id) ∧
    ((wanted = true ∧ current = some e) ∧ Recorded id l rest ∨
      ¬ (wanted = true ∧ current = some e) ∧ ∀ event ∈ rest, event.step.isSlight = true)

/-- A slight step before the entry is got changes nothing of this. -/
theorem Looked.cons (h : Looked id l tr) {a : Step} {r : a.Reply} (ha : a.isSlight = true)
    (hne : a ≠ .makeEntry id) : Looked id l (⟨a, r⟩ :: tr) := by
  obtain ⟨before, rest, e, wanted, current, rfl, hbefore, hrest⟩ := h
  exact ⟨⟨a, r⟩ :: before, rest, e, wanted, current, rfl,
    List.forall_mem_cons.2 ⟨⟨ha, hne⟩, hbefore⟩, hrest⟩

/-- Nor does a count in the end. -/
theorem Looked.concat (h : Looked id l tr) (event : PassEvent) :
    Looked id l (tr ++ [⟨.count event, ()⟩]) := by
  obtain ⟨before, rest, e, wanted, current, rfl, hbefore, hfree, hrest⟩ := h
  refine ⟨before, rest ++ [⟨.count event, ()⟩], e, wanted, current, by simp, hbefore,
    List.forall_mem_append.2 ⟨hfree, List.forall_mem_singleton.2 nofun⟩, ?_⟩
  rcases hrest with ⟨hfound, hrecorded⟩ | ⟨hlost, hslight⟩
  · exact .inl ⟨hfound, hrecorded.mono fun _ => List.mem_append_left _⟩
  · exact .inr ⟨hlost, List.forall_mem_append.2 ⟨hslight, List.forall_mem_singleton.2 rfl⟩⟩

/-- Steps other than a look at the entry complete no looks. -/
theorem checked_append {later events : List Event} {e : EntryId}
    (h : ∀ event ∈ later, event.step ≠ .findEntry id) :
    Checked id e (later ++ events) ↔ Checked id e events := by
  induction later with
  | nil => rfl
  | cons event later ih =>
    obtain ⟨hevent, hlater⟩ := List.forall_mem_cons.1 h
    rw [← ih hlater]
    exact ⟨fun hchecked => hchecked.of_cons hevent, fun hchecked => hchecked.cons _⟩

/-- It has noted its limiter if the looks have found all as it should be, and else has done
nothing. -/
theorem Looked.outcome (h : Looked id l tr) : (∃ e : EntryId, (⟨.makeEntry id, e⟩ : Event) ∈ tr) ∧
    ((∃ e, Checked id e tr.reverse) → Recorded id l tr) ∧
    ((∀ e, ¬ Checked id e tr.reverse) → ∀ event ∈ tr, event.step.isSlight = true) := by
  obtain ⟨before, rest, e, wanted, current, rfl, hbefore, hfree, hrest⟩ := h
  -- the entry was got only once
  have hunmade : Unmade id before.reverse := by
    intro e' he'
    exact (hbefore _ (List.mem_reverse.1 he')).2 rfl
  have hchecked : ∀ e', Checked id e' (before ++ ⟨.makeEntry id, e⟩ :: ⟨.isInterested id, wanted⟩ ::
      ⟨.findEntry id, current⟩ :: rest).reverse ↔ current = some e' ∧ wanted = true ∧ e = e' := by
    intro e'
    have hreverse : (before ++ ⟨.makeEntry id, e⟩ :: ⟨.isInterested id, wanted⟩ ::
        ⟨.findEntry id, current⟩ :: rest).reverse = rest.reverse ++ (⟨.findEntry id, current⟩ ::
          ⟨.isInterested id, wanted⟩ :: ⟨.makeEntry id, e⟩ :: before.reverse) := by simp
    rw [hreverse, checked_append fun event hevent => hfree event (List.mem_reverse.1 hevent)]
    exact checked_looks hunmade
  refine ⟨⟨e, by simp⟩, ?_, fun hnone => ?_⟩
  · -- the looks have found all as it should be
    rintro ⟨e', he'⟩
    obtain ⟨rfl, rfl, rfl⟩ := (hchecked e').1 he'
    rcases hrest with ⟨-, hrecorded⟩ | ⟨hlost, -⟩
    · exact hrecorded.mono fun event hevent => by simp [hevent]
    · exact absurd ⟨rfl, rfl⟩ hlost
  · -- or they have not, and all that was done is slight
    rcases hrest with ⟨⟨rfl, rfl⟩, -⟩ | ⟨-, hslight⟩
    · exact absurd ((hchecked e).2 ⟨rfl, rfl, rfl⟩) (hnone e)
    · refine List.forall_mem_append.2 ⟨fun event hevent => (hbefore event hevent).1, ?_⟩
      exact List.forall_mem_cons.2 ⟨rfl, List.forall_mem_cons.2
        ⟨rfl, List.forall_mem_cons.2 ⟨rfl, hslight⟩⟩⟩

/-- A pass that succeeds has got an entry and taken its looks. -/
theorem looked_of_runs_sync (h : Runs R (sync s id l).run w tr (.ok ()) w') : Looked id l tr := by
  unfold sync at h
  obtain ⟨(e : EntryId), v, rest, -, rfl, h₁⟩ := Attempt.runs_step_bind.1 h
  obtain ⟨v₁, v', -, hbody, -⟩ := Attempt.Runs.of_holding h₁
  obtain ⟨(wanted : Bool), v₂, rest₂, -, rfl, h₂⟩ := Attempt.runs_step_bind.1 hbody
  obtain ⟨(current : Option EntryId), v₃, rest₃, -, rfl, h₃⟩ := Attempt.runs_step_bind.1 h₂
  refine ⟨[], rest₃, e, wanted, current, rfl, List.forall_mem_nil _, ?_⟩
  cases wanted with
  | false =>
    -- nobody is interested any more: the entry is taken out if it is still that of the limiter
    dsimp only at h₃
    rw [if_pos (by decide : (!false) = true)] at h₃
    split at h₃
    · obtain ⟨u, v₄, rest₄, -, rfl, hpure⟩ := Attempt.runs_step_bind.1 h₃
      obtain ⟨rfl, -, -⟩ := Attempt.runs_pure.1 hpure
      exact ⟨List.forall_mem_singleton.2 nofun, .inr ⟨nofun, List.forall_mem_singleton.2 rfl⟩⟩
    · obtain ⟨rfl, -, -⟩ := Attempt.runs_pure.1 h₃
      exact ⟨List.forall_mem_nil _, .inr ⟨nofun, List.forall_mem_nil _⟩⟩
  | true =>
    rw [if_neg (by decide : ¬ (!true) = true)] at h₃
    -- the pass goes on only with the entry that the limiter still has
    by_cases hcurrent : current = some e
    · rw [if_neg fun hne => hne hcurrent] at h₃
      refine ⟨fun event hevent hstep => ?_, .inl ⟨⟨rfl, hcurrent⟩, ?_⟩⟩
      · have hworks := h₃.takes (takes_work_works s e) event hevent
        rw [hstep] at hworks
        exact hworks
      · rcases Attempt.runs_bind.1 h₃ with ⟨tr₁, c, v₄, tr₂, -, hbring, rfl⟩ | ⟨error, -, hy⟩
        · exact (recorded_of_runs_bringAbout hbring).mono fun _ => List.mem_append_right _
        · cases hy
    · rw [if_pos hcurrent] at h₃
      obtain ⟨rfl, -, -⟩ := Attempt.runs_pure.1 h₃
      exact ⟨List.forall_mem_nil _, .inr ⟨fun h => hcurrent h.2, List.forall_mem_nil _⟩⟩

/-- The limiter was passed over because it was as applied. -/
def PassedOver (events : List Event) : Prop :=
  (⟨.count (.pass .spec .unchanged), ()⟩ : Event) ∈ events

/-- It is passed over, or the pass goes on. -/
theorem outcome_of_runs_skipOrSync {revision : Option Nat}
    (h : Runs R (skipOrSync s id l revision).run w tr (.ok ()) w') :
    PassedOver tr ∨ Looked id l tr := by
  unfold skipOrSync at h
  obtain ⟨last, v, rest, -, rfl, h₁⟩ := Attempt.runs_step_bind.1 h
  split at h₁
  · obtain ⟨-, -, rfl⟩ := Attempt.runs_count.1 h₁
    exact .inl (List.mem_cons_of_mem _ List.mem_cons_self)
  · obtain ⟨u, v₁, rest₁, -, rfl, h₂⟩ := Attempt.runs_step_bind.1 h₁
    obtain ⟨tr₁, v₂, tr₂, hsync, rfl, hcount⟩ := Attempt.Runs.of_noting h₂
    -- the count in the end, if any, comes after all else
    have hlooked : Looked id l (tr₁ ++ tr₂) := by
      rcases hcount with ⟨rfl, -⟩ | ⟨e, -, rfl⟩
      · rw [List.append_nil]
        exact looked_of_runs_sync hsync
      · exact (looked_of_runs_sync hsync).concat e
    have hentering : Looked id l (⟨.addInterest id, u⟩ :: (tr₁ ++ tr₂)) := hlooked.cons rfl nofun
    exact .inr (hentering.cons rfl nofun)

/-- **What the pass over a changed limiter does that succeeds.** The limiter is passed over, or the
pass gets an entry and takes its looks. -/
theorem outcome_of_runs_reconcile (hkey : keyOf l = .ok id)
    (h : Runs R (reconcile s l).run w tr (.ok ()) w') : PassedOver tr ∨ Looked id l tr := by
  unfold reconcile at h
  rw [hkey] at h
  rcases Attempt.runs_bind.1 h with ⟨tr₁, id', v, tr₂, hid, h₁, rfl⟩ | ⟨e, -, hy⟩
  · obtain ⟨rfl, hok, rfl⟩ := runs_done.1 hid
    obtain rfl := Except.ok.inj hok
    dsimp only at h₁
    split at h₁
    · -- a limiter without sets is refused, so this is no success
      obtain ⟨v₁, rest, -, -, hthrow⟩ := Attempt.runs_count_bind.1 h₁
      obtain ⟨-, hy, -⟩ := Attempt.runs_throw_bind.1 hthrow
      cases hy
    · obtain ⟨entry, v₁, rest, -, rfl, h₂⟩ := Attempt.runs_step_bind.1 h₁
      -- what its entry holds matters only for whether it is passed over
      have hrest : PassedOver rest ∨ Looked id' l rest := by
        cases entry with
        | none => exact outcome_of_runs_skipOrSync h₂
        | some e =>
          obtain ⟨held, v₂, rest₂, -, rfl, h₃⟩ := Attempt.runs_step_bind.1 h₂
          exact (outcome_of_runs_skipOrSync h₃).imp (List.mem_cons_of_mem _) fun h =>
            h.cons rfl nofun
      exact hrest.imp (List.mem_cons_of_mem _) fun h => h.cons rfl nofun
  · cases hy

end Pass

end MeshLimiter
