import MeshLimiter.Proofs.Pass.History
import MeshLimiter.Proofs.Pass.Protocol
import MeshLimiter.Proofs.Pass.Scene
/-!
# Passes over one limiter never overlap

The lock that a pass holds is that of an entry, and entries come and go. A pass that waited for the
lock of an entry may find that the limiter has got another one meanwhile, and a second pass may hold
the lock of that one. What keeps them apart are the two looks that a pass takes once it has the
lock.

* **`Pass.Passing`**: a pass has taken its looks and is not over;
* **`Pass.Grounded`**, **`Pass.Separate`**: what holds of each side, and of both;
* **`Pass.separate_leads`**: each command of the protocol keeps this;
* **`Pass.passes_apart`**: at most one pass at a time works on a limiter, and the entry of the
  limiter is the one whose lock it holds.
-/

namespace MeshLimiter

open Interleaving

/-- Commands that only count. -/
def Command.Counts : Command → Prop
  | .step (.count _) => True
  | _ => False

namespace Pass

variable {R : Answering} {s : Settings} {id : ResourceId}

/-! ## Passes that have taken their looks

Whether a pass may work is read off what it has done since it got its entry. -/

/-- An entry was got, then the limiter was found to be of interest, and then the entry to be still
that of the limiter. What happened last comes first. -/
def Checked (id : ResourceId) (e : EntryId) (events : List Event) : Prop :=
  List.Sublist [⟨.findEntry id, some e⟩, ⟨.isInterested id, true⟩, ⟨.makeEntry id, e⟩] events

/-- A side is between the last look of a pass under the lock of an entry and the end of that
pass. -/
def Passing (id : ResourceId) (x : Parties Side Unit (Except PassError Unit)) (t : Side)
    (e : EntryId) :
    Prop :=
  Checked id e (sinceBegan t x.shared.past) ∧ ¬ (x.left t).Takes Command.Counts

/-- The commands with which a pass works on its limiter. Those on the registry are left out, for
deletions take them as well. -/
def AtWork : Command → Prop
  | .step (.call c) => c.concern ≠ .registry
  | .step (.subsetsOf _) | .step (.sendQueries _) | .step (.receiveAnswers _) => True
  | .step (.updateEntry _ _) => True
  | .step (.setApplied _ x) => x.isSome = true
  | .step (.setWritten _ x) => x.isSome = true
  | _ => False

/-- To work on a limiter is more than to count. -/
theorem not_counts_of_atWork {c : Command} (hc : AtWork c) : ¬ c.Counts := by
  intro hcounts
  cases c with
  | step a =>
    cases a with
    | count => exact hc
    | _ => exact hcounts
  | _ => exact hcounts

/-- No entry was got. -/
def Unmade (id : ResourceId) (events : List Event) : Prop :=
  ∀ e : EntryId, (⟨.makeEntry id, e⟩ : Event) ∉ events

variable {e e' : EntryId} {events : List Event}

/-- No entry is got by another step. -/
theorem Unmade.cons (h : Unmade id events) {a : Step} {r : a.Reply} (ha : a ≠ .makeEntry id) :
    Unmade id (⟨a, r⟩ :: events) := by
  intro e he
  rcases List.mem_cons.1 he with heq | hmem
  · exact ha (congrArg Event.step heq).symm
  · exact h e hmem

/-- Only a look at the entry completes the looks of a pass. -/
theorem Checked.of_cons {a : Step} {r : a.Reply} (h : Checked id e (⟨a, r⟩ :: events))
    (ha : a ≠ .findEntry id) : Checked id e events := by
  rcases List.sublist_cons_iff.1 h with h | ⟨l, heq, -⟩
  · exact h
  · exact absurd (congrArg Event.step (List.cons.inj heq).1).symm ha

/-- Where no entry was got, none was looked at. -/
theorem Unmade.not_checked (h : Unmade id events) : ¬ Checked id e events := fun hchecked =>
  h e (hchecked.subset (by simp))

/-- What the looks of a pass come to that has got an entry. -/
theorem checked_looks {wanted : Bool} {current : Option EntryId} (h : Unmade id events) :
    Checked id e'
      (⟨.findEntry id, current⟩ :: ⟨.isInterested id, wanted⟩ :: ⟨.makeEntry id, e⟩ :: events) ↔
      current = some e' ∧ wanted = true ∧ e = e' := by
  have hmade : ∀ {l : List Event}, (⟨.makeEntry id, e'⟩ : Event) ∈ l → ¬ l.Sublist events :=
    fun hmem hsub => h e' (hsub.subset hmem)
  constructor
  · intro hsub
    rcases List.sublist_cons_iff.1 hsub with hsub | ⟨l, heq, hsub⟩
    · -- the look at the entry is not among what was done before it
      have hasked : Checked id e' (⟨.isInterested id, wanted⟩ :: ⟨.makeEntry id, e⟩ :: events) :=
        hsub
      exact absurd ((hasked.of_cons nofun).of_cons nofun) h.not_checked
    obtain ⟨hcurrent, rfl⟩ := List.cons.inj heq
    rcases List.sublist_cons_iff.1 hsub with hsub | ⟨l, heq, hsub⟩
    · rcases List.sublist_cons_iff.1 hsub with hsub | ⟨l, heq, -⟩
      · exact absurd hsub (hmade (by simp))
      · cases heq
    obtain ⟨hwanted, rfl⟩ := List.cons.inj heq
    rcases List.sublist_cons_iff.1 hsub with hsub | ⟨l, heq, -⟩
    · exact absurd hsub (hmade (by simp))
    exact ⟨(Event.reply_eq hcurrent).symm, (Event.reply_eq hwanted).symm,
      (Event.reply_eq (List.cons.inj heq).1).symm⟩
  · rintro ⟨rfl, rfl, rfl⟩
    exact .cons_cons _ (.cons_cons _ (.cons_cons _ (List.nil_sublist _)))

/-! ## The invariant

For each side it says which lock it holds, what it has found, and what it may still take out. -/

namespace Phase

/-- The entry that a pass has found to be that of the limiter. -/
def fit? : Phase → Option EntryId
  | working e | dropping e => some e
  | _ => none

/-- The entry that a deletion has found and is to take out. -/
def cuts? : Phase → Option EntryId
  | found e | cutting e => some e
  | _ => none

/-- Whether a deletion is on its way to the entry. -/
def seeks : Phase → Bool
  | dropped | found _ | cutting _ => true
  | _ => false

/-- A pass that has found its entry to be the limiter's holds its lock. -/
theorem lock?_of_fit? {φ : Phase} (h : φ.fit? = some e) : φ.lock? = some e := by
  cases φ with
  | working | dropping => exact h
  | _ => cases h

/-- A deletion that has found an entry is on its way to it. -/
theorem seeks_of_cuts? {φ : Phase} (h : φ.cuts? = some e) : φ.seeks = true := by
  cases φ with
  | found | cutting => rfl
  | _ => cases h

end Phase

/-- What a side has done in a phase, the last first. -/
def Traced (id : ResourceId) : Phase → List Event → Prop
  | .waiting e, events | .holding e, events =>
    ∃ before, events = ⟨.makeEntry id, e⟩ :: before ∧ Unmade id before
  | .asked e wanted, events =>
    ∃ before, events = ⟨.isInterested id, wanted⟩ :: ⟨.makeEntry id, e⟩ :: before ∧ Unmade id before
  | .working e, events => ∀ e', Checked id e' events ↔ e = e'
  | .dropping _, events | .leaving _, events => ∀ e', ¬ Checked id e' events
  | _, events => Unmade id events

/-- What holds of a side that is in a phase. -/
structure Grounded (id : ResourceId) (v : Scene) (owner : Lock → Option Side) (t : Side) (φ : Phase)
    (events : List Event) : Prop where
  lock : ∀ e, φ.lock? = some e → owner (.entry e) = some t
  fit : ∀ e, φ.fit? = some e → v.current = some e
  /-- A deletion takes out the entry that it has found, unless that is gone by then. -/
  cuts : ∀ e, φ.cuts? = some e → v.current = some e ∨ v.current = none
  unwanted : φ.seeks = true → t = .changes ∧ v.wanted = false
  traced : Traced id φ events

variable {v v' : Scene} {owner owner' : Lock → Option Side} {t u : Side} {φ : Phase}

namespace Grounded

/-! ### What the other side does

A side relies on its own lock and on what only it changes, so it stays as it is. -/

/-- Nothing is lost while the entry, the interest and the locks of entries stay. -/
theorem still (h : Grounded id v owner u φ events) (hwanted : v'.wanted = v.wanted)
    (hcurrent : v'.current = v.current) (howner : ∀ e, owner' (.entry e) = owner (.entry e)) :
    Grounded id v' owner' u φ events where
  lock e he := by rw [howner]; exact h.lock e he
  fit := by rw [hcurrent]; exact h.fit
  cuts := by rw [hcurrent]; exact h.cuts
  unwanted := by rw [hwanted]; exact h.unwanted
  traced := h.traced

/-- It takes or gives back a lock that is not of this side. -/
theorem hand (h : Grounded id v owner u φ events) (hfree : owner (.entry e) ≠ some u)
    (taker : Option Side) : Grounded id v (Function.update owner (.entry e) taker) u φ events where
  lock e' he' := by
    have howner := h.lock e' he'
    rw [Function.update_of_ne]
    · exact howner
    · intro heq
      rw [← heq] at hfree
      exact hfree howner
  fit := h.fit
  cuts := h.cuts
  unwanted := h.unwanted
  traced := h.traced

/-- It gets the entry of the limiter, or makes one. -/
theorem made (h : Grounded id v owner u φ events) (hcurrent : v.current = none ∨ v.current = some e)
    (hcuts : φ.cuts? = none ∨ v.current ≠ none) :
    Grounded id { v with current := some e } owner u φ events where
  lock := h.lock
  fit e' he' := by
    rcases hcurrent with hnone | hsome
    · exact nomatch (h.fit e' he').symm.trans hnone
    · exact hsome.symm.trans (h.fit e' he')
  cuts e' he' := by
    rcases hcuts with hnone | hne
    · exact nomatch he'.symm.trans hnone
    · have hsome := hcurrent.resolve_left hne
      exact .inl (hsome.symm.trans ((h.cuts e' he').resolve_right hne))
  unwanted := h.unwanted
  traced := h.traced

/-- It takes out an entry that this side does not rely on. -/
theorem removed (h : Grounded id v owner u φ events) (hfit : φ.fit? = none) :
    Grounded id { v with current := none } owner u φ events where
  lock := h.lock
  fit _ he := nomatch he.symm.trans hfit
  cuts _ _ := .inr rfl
  unwanted := h.unwanted
  traced := h.traced

/-- A side that has not brought the interest about does not rely on it. -/
theorem withWanted (h : Grounded id v owner u φ events) (hu : u ≠ .changes) (wanted : Bool) :
    Grounded id { v with wanted } owner u φ events where
  lock := h.lock
  fit := h.fit
  cuts := h.cuts
  unwanted hseeks := absurd (h.unwanted hseeks).1 hu
  traced := h.traced

/-- Whoever holds the lock of the entry of the limiter is the only one to rely on it. -/
theorem fit_eq_none (h : Grounded id v owner u φ events) (hut : u ≠ t)
    (howner : ∀ e, v.current = some e → owner (.entry e) = some t) : φ.fit? = none := by
  refine Option.eq_none_iff_forall_ne_some.2 fun e he => hut ?_
  have hlock := h.lock e (Phase.lock?_of_fit? he)
  exact Option.some.inj (hlock.symm.trans (howner e (h.fit e he)))

/-- A side that is about to take out the entry of the limiter holds the lock of it. -/
theorem owner_of_removes (h : Grounded id v owner t φ events)
    (hφ : φ = .dropping e ∨ φ = .cutting e) :
    ∀ e', v.current = some e' → owner (.entry e') = some t := by
  intro e' he'
  rcases hφ with rfl | rfl
  · have hcurrent := h.fit e rfl
    rw [he'] at hcurrent
    obtain rfl := Option.some.inj hcurrent
    exact h.lock e' rfl
  · rcases h.cuts e rfl with hcurrent | hcurrent
    · rw [he'] at hcurrent
      obtain rfl := Option.some.inj hcurrent
      exact h.lock e' rfl
    · rw [he'] at hcurrent
      cases hcurrent

/-- A side that has no entry in view relies on nothing. -/
theorem ofUnmade (hφ : φ = .outside ∨ φ = .entering ∨ ∃ stage, φ = .gone stage)
    (h : Unmade id events) :
    Grounded id v owner t φ events := by
  rcases hφ with rfl | rfl | ⟨stage, rfl⟩
  all_goals exact ⟨nofun, nofun, nofun, nofun, h⟩

end Grounded

/-- What holds of both sides. A pass that is about to make an entry does not meet a deletion that
has found one and lost it. -/
structure Separate (s : Settings) (id : ResourceId) (σ : Shared Side Unit) (ph : Side → Place) :
    Prop where
  grounded : ∀ t φ, ph t = some φ →
    Grounded id (σ.world.held.scene s id) σ.owner t φ (sinceBegan t σ.past)
  entering : ∀ φ e, ph .changes = some φ → φ.cuts? = some e →
    (σ.world.held.scene s id).current = none → ph .metrics ≠ some .entering

namespace Separate

variable {σ σ' : Shared Side Unit} {ph : Side → Place} {place : Place}

/-- A side that neither comes to make an entry nor has found one to take out. -/
def Calm (place : Place) : Prop :=
  place ≠ some .entering ∧ ∀ φ, place = some φ → φ.cuts? = none

/-- A side that is aside is calm. -/
theorem calm_none : Calm none :=
  ⟨fun hφ => (nomatch hφ), fun _ hφ => nomatch hφ⟩

/-- So is one in any phase but these two. -/
theorem calm_some (hentering : φ ≠ .entering) (hcuts : φ.cuts? = none) : Calm (some φ) :=
  ⟨fun hφ => hentering (Option.some.inj hφ), fun _ hφ => Option.some.inj hφ ▸ hcuts⟩

/-- A side goes on to another place, by which nothing is taken away from the other side. -/
theorem goOn (h : Separate s id σ ph)
    (hothers : ∀ u φ, u ≠ t → ph u = some φ →
      Grounded id (σ.world.held.scene s id) σ.owner u φ (sinceBegan u σ.past) →
      Grounded id (σ'.world.held.scene s id) σ'.owner u φ (sinceBegan u σ'.past))
    (hself : ∀ φ, place = some φ →
      Grounded id (σ'.world.held.scene s id) σ'.owner t φ (sinceBegan t σ'.past))
    (hentering : Calm place ∨ ∀ φ e, Function.update ph t place .changes = some φ →
      φ.cuts? = some e →
      (σ'.world.held.scene s id).current = none →
      Function.update ph t place .metrics ≠ some .entering) :
    Separate s id σ' (Function.update ph t place) where
  grounded u φ hφ := by
    -- the side itself is told of, and the other one relies on less than what stays
    by_cases hu : u = t
    · subst hu
      rw [Function.update_self] at hφ
      exact hself φ hφ
    · rw [Function.update_of_ne hu] at hφ
      exact hothers u φ hu hφ (h.grounded u φ hφ)
  entering := by
    rcases hentering with ⟨hplace, hcuts⟩ | hentering
    · intro φ e hφ he hcurrent
      cases t with
      | changes =>
        rw [Function.update_self] at hφ
        exact nomatch he.symm.trans (hcuts φ hφ)
      | metrics =>
        rw [Function.update_self]
        exact hplace
    · exact hentering

/-- A side takes a step. -/
theorem step (h : Separate s id σ ph) {a : Step} {r : a.Reply} {w : World}
    (hothers : ∀ u φ events, u ≠ t → ph u = some φ →
      Grounded id (σ.world.held.scene s id) σ.owner u φ events →
      Grounded id (w.held.scene s id) σ.owner u φ events)
    (hself : ∀ φ, place = some φ →
      Grounded id (w.held.scene s id) σ.owner t φ (⟨a, r⟩ :: sinceBegan t σ.past))
    (hentering : Calm place ∨ ∀ φ e, Function.update ph t place .changes = some φ →
      φ.cuts? = some e →
      (w.held.scene s id).current = none → Function.update ph t place .metrics ≠ some .entering) :
    Separate s id (σ.after t ⟨a, r⟩ w) (Function.update ph t place) := by
  -- an event of `t` is not among those of another pass, so these stand as before
  refine h.goOn (fun u φ hu hφ hground => ?_) (fun φ hφ => ?_) hentering
  · have hpast : sinceBegan u (σ.after t ⟨a, r⟩ w).past = sinceBegan u σ.past := if_neg hu.symm
    rw [hpast]
    exact hothers u φ _ hu hφ hground
  · have hpast : sinceBegan t (σ.after t ⟨a, r⟩ w).past
        = ⟨a, r⟩ :: sinceBegan t σ.past := if_pos rfl
    rw [hpast]
    exact hself φ hφ

/-- A side takes the lock of an entry that no one holds, or gives back one of its own. -/
theorem handEntry (h : Separate s id σ ph) {taker : Option Side}
    (howner : σ.owner (.entry e) = none ∨ σ.owner (.entry e) = some t)
    (hself : ∀ φ, place = some φ → Grounded id (σ.world.held.scene s id)
      (Function.update σ.owner (.entry e) taker) t φ (sinceBegan t σ.past))
    (hentering : Calm place ∨ ∀ φ e, Function.update ph t place .changes = some φ →
      φ.cuts? = some e →
      (σ.world.held.scene s id).current = none →
      Function.update ph t place .metrics ≠ some .entering) :
    Separate s id (σ.hand (.entry e) taker) (Function.update ph t place) := by
  refine h.goOn (fun u φ hu hφ hground => hground.hand (fun howned => ?_) taker) hself hentering
  rcases howner with hnone | hsome
  · rw [hnone] at howned
    cases howned
  · exact hu (Option.some.inj (howned.symm.trans hsome))

/-- A side takes a command that a pass could work with. Nothing that the other side relies on is
changed. -/
theorem works (hR : R.Sound) (h : Separate s id σ ph) {c : Command} {r : c.Reply} (hc : Works c)
    (hp : Performs R t σ c r σ')
    (hself : ∀ φ v owner events, place = some φ → v.wanted = (σ.world.held.scene s id).wanted →
      v.current = (σ.world.held.scene s id).current →
      (∀ e, owner (.entry e) = σ.owner (.entry e)) →
      (events = sinceBegan t σ.past ∨ ∃ (a : Step) (r : a.Reply), Works (.step a) ∧
        events = ⟨a, r⟩ :: sinceBegan t σ.past) → Grounded id v owner t φ events)
    (hplace : Calm place) : Separate s id σ' (Function.update ph t place) := by
  -- a working pass takes no lock of an entry, and no step that touches one
  cases hp with
  | @step a r w answer =>
    obtain ⟨hwanted, hcurrent⟩ := (hR answer).scene_of_works s id hc
    exact h.step (fun u φ events hu hφ hground => hground.still hwanted hcurrent fun _ => rfl)
      (fun φ hφ => hself φ _ _ _ hφ hwanted hcurrent (fun _ => rfl) (.inr ⟨a, r, hc, rfl⟩))
        (.inl hplace)
  | @acquire l free =>
    cases l with
    | entry => cases hc
    | registry =>
      exact h.goOn (fun u φ hu hφ hground => hground.still rfl rfl (σ.owner_hand_registry _))
        (fun φ hφ => hself φ _ _ _ hφ rfl rfl (σ.owner_hand_registry _) (.inl rfl)) (.inl hplace)
  | release l =>
    cases l with
    | entry => cases hc
    | registry =>
      exact h.goOn (fun u φ hu hφ hground => hground.still rfl rfl (σ.owner_hand_registry _))
        (fun φ hφ => hself φ _ _ _ hφ rfl rfl (σ.owner_hand_registry _) (.inl rfl)) (.inl hplace)
  | sleepUntil =>
    exact h.goOn (fun u φ hu hφ hground => hground)
      (fun φ hφ => hself φ _ _ _ hφ rfl rfl (fun _ => rfl) (.inl rfl)) (.inl hplace)
  | await | retryAfter => cases hc

/-- A working pass gets no entry. -/
theorem unmade_of_works {past events : List Event} (h : Unmade id past)
    (hevents : events = past ∨ ∃ (a : Step) (r : a.Reply), Works (.step a) ∧
      events = ⟨a, r⟩ :: past) :
    Unmade id events := by
  rcases hevents with rfl | ⟨a, r, ha, rfl⟩
  · exact h
  · refine h.cons ?_
    rintro rfl
    exact ha

/-- A deletion that is past the entry goes on. -/
theorem goneOn (hR : R.Sound) (h : Separate s id σ ph) {stage : Stage}
    (hφ : ph t = some (.gone stage))
    {c : Command} {r : c.Reply} (hp : Performs R t σ c r σ') (hc : Works c)
    (hplace : place = none ∨ ∃ stage, place = some (.gone stage)) :
    Separate s id σ' (Function.update ph t place) := by
  have htraced : Unmade id (sinceBegan t σ.past) := (h.grounded t _ hφ).traced
  refine h.works hR hc hp (fun φ v owner events hplace' _ _ _ hevents => ?_) ?_
  · rcases hplace with rfl | ⟨stage, rfl⟩
    · cases hplace'
    · obtain rfl := Option.some.inj hplace'
      exact .ofUnmade (.inr (.inr ⟨stage, rfl⟩)) (unmade_of_works htraced hevents)
  · rcases hplace with rfl | ⟨stage, rfl⟩
    · exact calm_none
    · exact calm_some nofun rfl

/-- A pass that works goes on. -/
theorem workingOn (hR : R.Sound) (h : Separate s id σ ph) (hφ : ph t = some (.working e))
    {c : Command}
    {r : c.Reply} (hp : Performs R t σ c r σ') (hc : Works c) :
    Separate s id σ' (Function.update ph t (some (.working e))) := by
  have hground := h.grounded t _ hφ
  refine h.works hR hc hp (fun φ v owner events hplace _ hcurrent howner hevents => ?_)
    (calm_some nofun rfl)
  obtain rfl := Option.some.inj hplace
  refine ⟨fun e' he' => (howner e').trans (hground.lock e' he'),
    fun e' he' => hcurrent.trans (hground.fit e' he'), nofun, nofun, fun e' => ?_⟩
  rcases hevents with rfl | ⟨a, r, ha, rfl⟩
  · exact hground.traced e'
  · -- the second look is over, so a working pass does not look again
    have hne : a ≠ .findEntry id := by
      rintro rfl
      exact ha
    exact ⟨fun hchecked => (hground.traced e').1 (hchecked.of_cons hne),
      fun he => ((hground.traced e').2 he).cons _⟩

/-- A side looks at something, and goes by what it sees. -/
theorem look (hR : R.Sound) (h : Separate s id σ ph) {a : Step} {r : a.Reply}
    (ha : a.isQuiet = true) (hp : Performs R t σ (.step a) r σ')
    (hself : ∀ φ, place = some φ →
      Grounded id (σ.world.held.scene s id) σ.owner t φ (⟨a, r⟩ :: sinceBegan t σ.past))
    (hentering : Calm place ∨ ∀ φ e, Function.update ph t place .changes = some φ →
      φ.cuts? = some e →
      (σ.world.held.scene s id).current = none →
      Function.update ph t place .metrics ≠ some .entering) :
    Separate s id σ' (Function.update ph t place) := by
  obtain ⟨w, answer, rfl⟩ := performs_step.1 hp
  -- a quiet step changes nothing that is held
  have hheld : w.held = σ.world.held := (hR answer).held_of_isQuiet ha
  refine h.step (fun u φ events hu hφ hground => ?_) ?_ ?_
  · rw [hheld]
    exact hground
  · rw [hheld]
    exact hself
  · rw [hheld]
    exact hentering

/-! ### Before a pass

Until it has got an entry a pass relies on nothing. -/

/-- To look from outside leads nowhere. -/
theorem lookAround (hR : R.Sound) (h : Separate s id σ ph) (hφ : ph t = some .outside) {a : Step}
    {r : a.Reply} (ha : a.isLook = true) (hp : Performs R t σ (.step a) r σ') :
    Separate s id σ' (Function.update ph t (some .outside)) := by
  have hground := h.grounded t _ hφ
  refine h.look hR ?_ hp (fun φ hplace => ?_) (.inl (calm_some nofun rfl))
  · cases a with
    | isInterested | findEntry | readEntry | findApplied | count => rfl
    | _ => cases ha
  · obtain rfl := Option.some.inj hplace
    refine .ofUnmade (.inl rfl) (Unmade.cons hground.traced ?_)
    rintro rfl
    cases ha

/-- The limiter comes to be of interest, and the pass is about to enter. -/
theorem addInterest (hR : R.Sound) (h : Separate s id σ ph)
    (hφ : ph .changes = some .outside) {r : Unit}
    (hp : Performs R .changes σ (.step (.addInterest id)) r σ') :
    Separate s id σ' (Function.update ph .changes (some .entering)) := by
  have hground := h.grounded _ _ hφ
  obtain ⟨w, answer, rfl⟩ := performs_step.1 hp
  refine h.step (fun u φ events hu hφ hground => ?_) (fun φ hplace => ?_)
    (.inr fun φ e hplace he => ?_)
  · rw [(hR answer).scene_addInterest]
    exact hground.withWanted hu true
  · obtain rfl := Option.some.inj hplace
    exact .ofUnmade (.inr (.inl rfl)) (Unmade.cons hground.traced nofun)
  · rw [Function.update_self] at hplace
    obtain rfl := Option.some.inj hplace
    cases he

/-- The limiter is of interest, so the pass is about to enter. -/
theorem interested (hR : R.Sound) (h : Separate s id σ ph) (hφ : ph .metrics = some .outside)
    (hp : Performs R .metrics σ (.step (.isInterested id)) true σ') :
    Separate s id σ' (Function.update ph .metrics (some .entering)) := by
  have hground := h.grounded _ _ hφ
  have hwanted : (σ.world.held.scene s id).wanted = true := by
    obtain ⟨w, answer, -⟩ := performs_step.1 hp
    exact (hR answer).isInterested.symm
  refine h.look hR rfl hp (fun φ hplace => ?_) (.inr fun φ e hplace he => ?_)
  · obtain rfl := Option.some.inj hplace
    exact .ofUnmade (.inr (.inl rfl)) (Unmade.cons hground.traced nofun)
  · -- a deletion that has found an entry has made the limiter one of no interest
    rw [Function.update_of_ne (by decide)] at hplace
    have hunwanted := ((h.grounded _ _ hplace).unwanted (Phase.seeks_of_cuts? he)).2
    rw [hwanted] at hunwanted
    cases hunwanted

/-! ### A pass

From the entry on, a pass holds its lock and takes its two looks. -/

/-- The pass has got the entry of the limiter. -/
theorem makeEntry (hR : R.Sound) (h : Separate s id σ ph) (hφ : ph t = some .entering)
    (hp : Performs R t σ (.step (.makeEntry id)) e σ') :
    Separate s id σ' (Function.update ph t (some (.waiting e))) := by
  have hground := h.grounded t _ hφ
  obtain ⟨w, answer, rfl⟩ := performs_step.1 hp
  obtain ⟨hcurrent, hscene⟩ := (hR answer).scene_makeEntry s
  refine h.step (fun u φ events hu hφu hu' => ?_) (fun φ hplace => ?_) (.inl (calm_some nofun rfl))
  · rw [hscene]
    refine hu'.made hcurrent ?_
    cases hcuts : φ.cuts? with
    | none => exact .inl rfl
    | some e' =>
      -- a deletion that looks for this entry would not have let the pass come here
      refine .inr fun hnone => ?_
      have hchanges : u = .changes := (hu'.unwanted (Phase.seeks_of_cuts? hcuts)).1
      subst hchanges
      have hmetrics : t = .metrics := by cases t with
        | changes => exact absurd rfl hu
        | metrics => rfl
      subst hmetrics
      exact h.entering φ e' hφu hcuts hnone hφ
  · obtain rfl := Option.some.inj hplace
    exact ⟨nofun, nofun, nofun, nofun, _, rfl, hground.traced⟩

/-- It has got the lock of that entry. -/
theorem acquire (h : Separate s id σ ph) (hφ : ph t = some (.waiting e)) {r : Unit}
    (hp : Performs R t σ (.acquire (.entry e)) r σ') :
    Separate s id σ' (Function.update ph t (some (.holding e))) := by
  have hground := h.grounded t _ hφ
  obtain ⟨free, rfl⟩ := performs_acquire.1 hp
  refine h.handEntry (.inl free) (fun φ hplace => ?_) (.inl (calm_some nofun rfl))
  obtain rfl := Option.some.inj hplace
  refine ⟨fun e' he' => ?_, nofun, nofun, nofun, hground.traced⟩
  obtain rfl := Option.some.inj he'
  exact Function.update_self ..

/-- It has looked whether the limiter is of interest. -/
theorem isInterested (hR : R.Sound) (h : Separate s id σ ph) (hφ : ph t = some (.holding e))
    {wanted : Bool} (hp : Performs R t σ (.step (.isInterested id)) wanted σ') :
    Separate s id σ' (Function.update ph t (some (.asked e wanted))) := by
  have hground := h.grounded t _ hφ
  refine h.look hR rfl hp (fun φ hplace => ?_) (.inl (calm_some nofun rfl))
  obtain rfl := Option.some.inj hplace
  obtain ⟨before, hbefore, hunmade⟩ := hground.traced
  exact ⟨hground.lock, nofun, nofun, nofun, before, by rw [hbefore], hunmade⟩

/-- It has looked whether its entry is still that of the limiter. -/
theorem findEntry (hR : R.Sound) (h : Separate s id σ ph) {wanted : Bool}
    (hφ : ph t = some (.asked e wanted)) {current : Option EntryId}
    (hp : Performs R t σ (.step (.findEntry id)) current σ') :
    Separate s id σ' (Function.update ph t (some (.afterLook e wanted current))) := by
  have hground := h.grounded t _ hφ
  have hcurrent : (σ.world.held.scene s id).current = current := by
    obtain ⟨w, answer, -⟩ := performs_step.1 hp
    exact (hR answer).findEntry.symm
  obtain ⟨before, hbefore, hunmade⟩ := hground.traced
  -- both looks are known now, so whether the pass may work is decided here
  have hchecked : ∀ e', Checked id e' (⟨.findEntry id, current⟩ :: sinceBegan t σ.past) ↔
      current = some e' ∧ wanted = true ∧ e = e' := by
    intro e'
    rw [hbefore]
    exact checked_looks hunmade
  refine h.look hR rfl hp (fun φ hplace => ?_) (.inl ?_)
  · obtain rfl := Option.some.inj hplace
    unfold Phase.afterLook
    split
    · next hsome =>
      subst hsome
      cases wanted with
      | true =>
        exact ⟨hground.lock, fun e' he' => by rw [hcurrent, ← he']; rfl, nofun, nofun,
          fun e' => by rw [hchecked e']; simp⟩
      | false =>
        exact ⟨hground.lock, fun e' he' => by rw [hcurrent, ← he']; rfl, nofun, nofun,
          fun e' => by rw [hchecked e']; simp⟩
    · -- the entry is not the limiter's any more
      next hother =>
      refine ⟨hground.lock, nofun, nofun, nofun, fun e' => ?_⟩
      rw [hchecked e']
      rintro ⟨rfl, -, rfl⟩
      exact hother rfl
  · unfold Phase.afterLook
    split
    · cases wanted <;> exact calm_some nofun rfl
    · exact calm_some nofun rfl

/-- The entry is taken out, by a pass that has found no interest in the limiter or by a deletion. -/
theorem removeEntry (hR : R.Sound) (h : Separate s id σ ph) {φ φ' : Phase} (hφ : ph t = some φ)
    (hremoves : φ = .dropping e ∧ φ' = .leaving e ∨ φ = .cutting e ∧ φ' = .cut e) {r : Unit}
    (hp : Performs R t σ (.step (.removeEntry id)) r σ') :
    Separate s id σ' (Function.update ph t (some φ')) := by
  have hground := h.grounded t φ hφ
  have howner := hground.owner_of_removes (hremoves.imp And.left And.left)
  obtain ⟨w, answer, rfl⟩ := performs_step.1 hp
  refine h.step (fun u φ events hu hφu hu' => ?_) (fun φ hplace => ?_) (.inl ?_)
  · rw [(hR answer).scene_removeEntry]
    exact hu'.removed (hu'.fit_eq_none hu howner)
  · obtain rfl := Option.some.inj hplace
    rcases hremoves with ⟨rfl, rfl⟩ | ⟨rfl, rfl⟩
    · exact ⟨hground.lock, nofun, nofun, nofun,
        fun e' hchecked => hground.traced e' (hchecked.of_cons nofun)⟩
    · exact ⟨hground.lock, nofun, nofun, nofun, Unmade.cons hground.traced nofun⟩
  · rcases hremoves with ⟨-, rfl⟩ | ⟨-, rfl⟩ <;> exact calm_some nofun rfl

/-- A side gives back the lock of an entry and goes where it needs none. -/
theorem release (h : Separate s id σ ph) {φ : Phase} (hφ : ph t = some φ) (hlock : φ.lock? = some e)
    (hplace : place = none ∨ φ = .cut e ∧ place = some (.gone .clearing)) {r : Unit}
    (hp : Performs R t σ (.release (.entry e)) r σ') :
    Separate s id σ' (Function.update ph t place) := by
  have hground := h.grounded t φ hφ
  obtain rfl := performs_release.1 hp
  refine h.handEntry (.inr (hground.lock e hlock)) (fun φ' hφ' => ?_) (.inl ?_)
  · rcases hplace with rfl | ⟨rfl, rfl⟩
    · cases hφ'
    · obtain rfl := Option.some.inj hφ'
      exact .ofUnmade (.inr (.inr ⟨_, rfl⟩)) hground.traced
  · rcases hplace with rfl | ⟨-, rfl⟩
    · exact calm_none
    · exact calm_some nofun rfl

/-! ### A deletion

A deletion looks for the entry once and then takes out what it has found. -/

/-- The limiter is of no interest any more. -/
theorem dropInterest (hR : R.Sound) (h : Separate s id σ ph)
    (hφ : ph .changes = some .outside) {r : Unit}
    (hp : Performs R .changes σ (.step (.dropInterest id)) r σ') :
    Separate s id σ' (Function.update ph .changes (some .dropped)) := by
  have hground := h.grounded _ _ hφ
  obtain ⟨w, answer, rfl⟩ := performs_step.1 hp
  refine h.step (fun u φ events hu hφ hground => ?_) (fun φ hplace => ?_)
    (.inl (calm_some nofun rfl))
  · rw [(hR answer).scene_dropInterest]
    exact hground.withWanted hu false
  · obtain rfl := Option.some.inj hplace
    rw [(hR answer).scene_dropInterest]
    exact ⟨nofun, nofun, nofun, fun _ => ⟨rfl, rfl⟩, Unmade.cons hground.traced nofun⟩

/-- The deletion has looked for the entry. -/
theorem lookFor (hR : R.Sound) (h : Separate s id σ ph) (hφ : ph .changes = some .dropped)
    {found : Option EntryId} (hp : Performs R .changes σ (.step (.findEntry id)) found σ') :
    Separate s id σ' (Function.update ph .changes (some (.ofFound found))) := by
  have hground := h.grounded _ _ hφ
  have hcurrent : (σ.world.held.scene s id).current = found := by
    obtain ⟨w, answer, -⟩ := performs_step.1 hp
    exact (hR answer).findEntry.symm
  have hunmade : Unmade id (⟨.findEntry id, found⟩ :: sinceBegan .changes σ.past) :=
    Unmade.cons hground.traced nofun
  cases found with
  | none =>
    refine h.look hR rfl hp (fun φ hplace => ?_) (.inl (calm_some nofun rfl))
    obtain rfl := Option.some.inj hplace
    exact .ofUnmade (.inr (.inr ⟨_, rfl⟩)) hunmade
  | some e =>
    -- what was found is the entry that the limiter has
    refine h.look hR rfl hp (fun φ hplace => ?_) (.inr fun _ _ _ _ hnone => ?_)
    · obtain rfl := Option.some.inj hplace
      exact ⟨nofun, nofun, fun e' he' => .inl (hcurrent.trans he'), hground.unwanted, hunmade⟩
    · rw [hcurrent] at hnone
      cases hnone

/-- It has got the lock of the entry that it has found. -/
theorem lockToCut (h : Separate s id σ ph) (hφ : ph .changes = some (.found e)) {r : Unit}
    (hp : Performs R .changes σ (.acquire (.entry e)) r σ') :
    Separate s id σ' (Function.update ph .changes (some (.cutting e))) := by
  have hground := h.grounded _ _ hφ
  obtain ⟨free, rfl⟩ := performs_acquire.1 hp
  refine h.handEntry (.inl free) (fun φ hplace => ?_) (.inr fun φ e' hplace he' hnone => ?_)
  · obtain rfl := Option.some.inj hplace
    refine ⟨fun e' he' => ?_, nofun, hground.cuts, hground.unwanted, hground.traced⟩
    obtain rfl := Option.some.inj he'
    exact Function.update_self ..
  · rw [Function.update_of_ne (by decide)]
    exact h.entering _ _ hφ rfl hnone

end Separate

/-- **The protocol keeps the sides apart.** -/
theorem separate_leads (hR : R.Sound) {σ σ' : Shared Side Unit} {ph : Side → Place}
    {place place' : Place}
    {c : Command} {r : c.Reply} (h : Separate s id σ ph) (hφ : ph t = place)
    (hl : Leads s id t place c r place') (hp : Performs R t σ c r σ') :
    Separate s id σ' (Function.update ph t place') := by
  -- by cases on the command; each case is one of the lemmas above
  cases hl with
  | look looks => exact h.lookAround hR hφ looks hp
  | addInterest => exact h.addInterest hR hφ hp
  | interested => exact h.interested hR hφ hp
  | makeEntry e => exact h.makeEntry hR hφ hp
  | acquire => exact h.acquire hφ hp
  | isInterested wanted => exact h.isInterested hR hφ hp
  | findEntry current => exact h.findEntry hR hφ hp
  | work works => exact h.workingOn hR hφ hp works
  | removeEntry => exact h.removeEntry hR hφ (.inl ⟨rfl, rfl⟩) hp
  | release ends =>
    refine h.release hφ ?_ (.inl rfl) hp
    rcases ends with rfl | rfl <;> rfl
  | count event => exact h.look hR rfl hp (fun φ hplace => nomatch hplace) (.inl Separate.calm_none)
  | dropInterest => exact h.dropInterest hR hφ hp
  | lookFor found => exact h.lookFor hR hφ hp
  | lockToCut => exact h.lockToCut hφ hp
  | cut => exact h.removeEntry hR hφ (.inr ⟨rfl, rfl⟩) hp
  | unlockCut => exact h.release hφ rfl (.inr ⟨rfl, rfl⟩) hp
  | forgetApplied | forgetWritten | lockRegistry | unlockRegistry knows =>
    exact h.goneOn hR hφ hp trivial (.inr ⟨_, rfl⟩)
  | getRegistry r | replaceRegistry free r | countGone event =>
    exact h.goneOn hR hφ hp trivial (.inr ⟨_, rfl⟩)
  | giveUp => exact h.goneOn hR hφ hp trivial (.inl rfl)

/-! ## All ways in which the sides may take turns

The invariant holds of whatever the sides come to, so at most one of them is at work. -/

/-- What a side may begin on. One side reconciles the limiter and deletes it, one after another; the
other refreshes it. -/
def Starts (s : Settings) (id : ResourceId) : Side → Program (Except PassError Unit) → Prop
  | .changes, p => (∃ l, keyOf l = .ok id ∧ p = (reconcile s l).run) ∨ p = (delete s id).run
  | .metrics, p => ∃ l, keyOf l = .ok id ∧ p = (refresh s l).run

/-- What others may do meanwhile: anything but to change the interest in the limiter or its
entry. -/
def Spares (id : ResourceId) (w w' : World) : Prop :=
  w'.held.interest.contains id = w.held.interest.contains id ∧
    w'.held.store.find? id = w.held.store.find? id

def sides (R : Answering) (s : Settings) (id : ResourceId) :
    Rules Side Unit (Except PassError Unit) where
  answers := R
  begins t _ w p w' := Starts s id t p ∧ w' = w
  outside σ w := Spares id σ.world w

/-- What a side may begin on follows the protocol. -/
theorem Starts.follows {p : Program (Except PassError Unit)} (h : Starts s id t p) :
    p.Follows (Leads s id t) (fun _ _ => True) (some .outside) := by
  cases t with
  | changes =>
    rcases h with ⟨l, hkey, rfl⟩ | rfl
    · exact (follows_reconcile hkey).mono fun _ _ _ => trivial
    · exact follows_delete.mono fun _ _ _ => trivial
  | metrics =>
    obtain ⟨l, hkey, rfl⟩ := h
    exact (follows_refresh hkey).mono fun _ _ _ => trivial

namespace Separate

variable {σ : Shared Side Unit} {ph : Side → Place}

/-- Sides that have nothing to do are apart. -/
theorem of_idle : Separate s id σ fun _ => none where
  grounded _ _ hφ := nomatch hφ
  entering _ _ hφ := nomatch hφ

/-- A side begins on something. -/
theorem started (h : Separate s id σ ph) (t : Side) (note : Unit) :
    Separate s id (σ.started t note σ.world) (Function.update ph t (some .outside)) := by
  refine h.goOn (fun u φ hu hφ hground => ?_) (fun φ hφ => ?_) (.inl (calm_some nofun rfl))
  · have hpast : sinceBegan u (σ.started t note σ.world).past = sinceBegan u σ.past :=
      if_neg hu.symm
    rw [hpast]
    exact hground
  · have hpast : sinceBegan t (σ.started t note σ.world).past = [] := if_pos rfl
    obtain rfl := Option.some.inj hφ
    rw [hpast]
    exact .ofUnmade (.inl rfl) nofun

/-- Others do something. -/
theorem spared {w : World} (h : Separate s id σ ph) (spares : Spares id σ.world w) :
    Separate s id { σ with world := w } ph where
  grounded t φ hφ := (h.grounded t φ hφ).still spares.1 spares.2 fun _ => rfl
  entering φ e hφ he hnone := h.entering φ e hφ he (spares.2.symm.trans hnone)

end Separate

/-- Both sides keep the invariant, and so does what others may do. -/
theorem obey_sides (hR : R.Sound) :
    (sides R s id).Obey (Separate s id) (Leads s id) fun _ _ _ => True where
  leads _ _ _ _ _ _ _ h hl hp := separate_leads hR h rfl hl hp
  begins := by
    rintro t note σ ph y p w h - ⟨hstarts, rfl⟩
    exact ⟨some .outside, h.started t note, hstarts.follows⟩
  outside _ _ _ h happens := h.spared happens

/-- What a side has left to do once it is at its end. -/
theorem takes_counts {α : Type} {p : Program α} {post : α → Place → Prop}
    (h : p.Follows (Leads s id t) post none) : p.Takes Command.Counts := by
  refine h.takes fun c r place hl => ?_
  cases hl with
  | count event => exact ⟨trivial, rfl⟩

/-- A side that has taken the looks of a pass, and found all as it should be, works. -/
theorem Traced.eq_working (h : Traced id φ events) (hchecked : Checked id e events) :
    φ = .working e := by
  cases φ with
  | working e' => rw [(h e).1 hchecked]
  | waiting | holding =>
    obtain ⟨before, rfl, hunmade⟩ := h
    exact absurd (hchecked.of_cons nofun) hunmade.not_checked
  | asked =>
    obtain ⟨before, rfl, hunmade⟩ := h
    exact absurd ((hchecked.of_cons nofun).of_cons nofun) hunmade.not_checked
  | dropping | leaving => exact absurd hchecked (h e)
  | _ => exact absurd hchecked (Unmade.not_checked h)

/-- A command at work is one of a pass that works. -/
theorem Leads.working {place place' : Place} {c : Command} {r : c.Reply}
    (h : Leads s id t place c r place') (hc : AtWork c) : ∃ e, place = some (.working e) := by
  cases h with
  | @work _ e => exact ⟨e, rfl⟩
  | @look _ a _ looks =>
    cases a with
    | isInterested | findEntry | readEntry | findApplied | count => cases hc
    | _ => cases looks
  | getRegistry | replaceRegistry => exact absurd rfl hc
  | _ => cases hc

/-- Whoever takes out the entry holds the lock of one. -/
theorem Leads.removes {place place' : Place} {r : Unit}
    (h : Leads s id t place (.step (.removeEntry id)) r place') :
    ∃ φ e, place = some φ ∧ (φ = .dropping e ∨ φ = .cutting e) := by
  cases h with
  | look looks => cases looks
  | work works => cases works
  | @removeEntry _ e => exact ⟨_, e, rfl, .inl rfl⟩
  | @cut e => exact ⟨_, e, rfl, .inr rfl⟩

/-- **Passes over one limiter never overlap.** Let one side reconcile a limiter and delete it, the
other refresh it, and others leave it alone, in any order of their steps. A pass that has taken its
looks holds the lock of the entry that the limiter has, until it is over. So there is one such pass
at a time. Whatever a pass does for its limiter it does then, and only who holds the lock of the
entry takes it out. -/
theorem passes_apart (hR : R.Sound) {x₀ x : Parties Side Unit (Except PassError Unit)}
    (hidle : ∀ t, ∃ y, x₀.left t = .done y) (h : Reaches (sides R s id) x₀ x) :
    (∀ t e, Passing id x t e →
      x.shared.owner (.entry e) = some t ∧ x.shared.world.held.store.find? id = some e) ∧
    (∀ t u e e', Passing id x t e → Passing id x u e' → t = u ∧ e = e') ∧
    (∀ t c next, x.left t = .ask c next → AtWork c → ∃ e, Passing id x t e) ∧
    ∀ t next, x.left t = .ask (.step (.removeEntry id)) next →
      ∀ e, x.shared.world.held.store.find? id = some e → x.shared.owner (.entry e) = some t := by
  have hstart : Follow (Separate s id) (Leads s id) (fun _ _ _ => True) x₀ := by
    refine ⟨fun _ => none, .of_idle, fun t => ?_⟩
    obtain ⟨y, hy⟩ := hidle t
    rw [hy]
    trivial
  obtain ⟨ph, hsep, hfollows⟩ := h.follow (obey_sides hR) hstart
  have hworks : ∀ {t e}, Passing id x t e → ph t = some (.working e) := by
    intro t e hpassing
    have hfollow := hfollows t
    cases hφ : ph t with
    | none =>
      rw [hφ] at hfollow
      exact absurd (takes_counts hfollow) hpassing.2
    | some φ => rw [(hsep.grounded t φ hφ).traced.eq_working hpassing.1]
  have hpass : ∀ t e, Passing id x t e →
      x.shared.owner (.entry e) = some t ∧ x.shared.world.held.store.find? id = some e :=
    fun t e hpassing =>
      have hground := hsep.grounded t _ (hworks hpassing)
      ⟨hground.lock e rfl, hground.fit e rfl⟩
  refine ⟨hpass, fun t u e e' ht hu => ?_, fun t c next hleft hc => ?_, fun t next hleft e he => ?_⟩
  · -- both hold the lock of the one entry that the limiter has
    obtain ⟨howner, hentry⟩ := hpass t e ht
    obtain ⟨howner', hentry'⟩ := hpass u e' hu
    obtain rfl := Option.some.inj (hentry.symm.trans hentry')
    exact ⟨Option.some.inj (howner.symm.trans howner'), rfl⟩
  · have hfollow := hfollows t
    rw [hleft] at hfollow
    obtain ⟨r, place, hl⟩ := hfollow.leads
    obtain ⟨e, hφ⟩ := hl.working hc
    refine ⟨e, ((hsep.grounded t _ hφ).traced e).2 rfl, fun htakes => ?_⟩
    rw [hleft] at htakes
    exact not_counts_of_atWork hc htakes.1
  · have hfollow := hfollows t
    rw [hleft] at hfollow
    obtain ⟨r, place, hl⟩ := hfollow.leads
    obtain ⟨φ, e', hφ, hremoves⟩ := hl.removes
    exact (hsep.grounded t φ hφ).owner_of_removes hremoves e he

/-- The two sides of the reviews, before they have begun on anything. -/
def idleSides : Parties Side Unit (Except PassError Unit) :=
  { shared := ⟨reviewsWorld [], fun _ => none, []⟩, left := fun _ => .done (.ok ()) }

/-- The reviews are reconciled. The pass has got an entry and waits for its lock. -/
def reconciled : Parties Side Unit (Except PassError Unit) :=
  (idleSides.begun .changes () (reconcile noMetrics (reviewsLimiter 1 [("v1", "1")])).run).turns
    (List.replicate 4 .changes)

/-- They are refreshed as well. Both passes have got the entry, and the first has taken its
looks. -/
def twoPasses : Parties Side Unit (Except PassError Unit) :=
  (reconciled.begun .metrics () (refresh noMetrics (reviewsLimiter 1 [("v1", "1")])).run).turns
    (List.replicate 2 .metrics ++ List.replicate 3 .changes ++ [.metrics])

/-- Whether a program makes a call about a service next. -/
def callsService {α : Type} : Program α → Bool
  | .ask (.step (.call (.service _))) _ => true
  | _ => false

/-- A call about a service is work. -/
theorem exists_ask_of_callsService {α : Type} {p : Program α} (h : callsService p = true) :
    ∃ c next, p = .ask c next ∧ AtWork c := by
  unfold callsService at h
  split at h
  · next next => exact ⟨_, next, rfl, nofun⟩
  · cases h

/-- Only the pass that has the lock goes on. -/
theorem passes_apart_twoPasses :
    (∃ e, Passing reviews twoPasses .changes e ∧ twoPasses.shared.owner (.entry e) = some .changes ∧
      twoPasses.shared.world.held.store.find? reviews = some e) ∧
    ∀ e, ¬ Passing reviews twoPasses .metrics e := by
  have hperform : ∀ w a, (sides World.Answers noMetrics reviews).answers w a (w.perform a).1
      (w.perform a).2 :=
    World.answers_perform
  have hreconcile : (sides World.Answers noMetrics reviews).begins .changes
      () idleSides.shared.world
      (reconcile noMetrics (reviewsLimiter 1 [("v1", "1")])).run idleSides.shared.world :=
    ⟨.inl ⟨_, rfl, rfl⟩, rfl⟩
  have hrefresh : (sides World.Answers noMetrics reviews).begins .metrics () reconciled.shared.world
      (refresh noMetrics (reviewsLimiter 1 [("v1", "1")])).run reconciled.shared.world :=
    ⟨⟨_, rfl, rfl⟩, rfl⟩
  have hidle : succeeded (reconciled.left .metrics) = true := by decide
  have hfirst : Reaches (sides World.Answers noMetrics reviews) idleSides reconciled :=
    (Parties.reaches_begun rfl hreconcile).trans (Parties.reaches_turns hperform _ _)
  have hsecond : Reaches (sides World.Answers noMetrics reviews) reconciled twoPasses :=
    (Parties.reaches_begun (eq_done_of_succeeded hidle) hrefresh).trans
      (Parties.reaches_turns hperform _ _)
  -- the first pass is about to ask for the service, which is work
  have hservice : callsService (twoPasses.left .changes) = true := by decide
  obtain ⟨c, next, hleft, hc⟩ := exists_ask_of_callsService hservice
  obtain ⟨hpass, hone, hworks, -⟩ := passes_apart sound_answers (fun _ => ⟨_, rfl⟩)
    (hfirst.trans hsecond)
  obtain ⟨e, he⟩ := hworks .changes c next hleft hc
  exact ⟨⟨e, he, hpass _ e he⟩, fun e' he' => nomatch (hone _ _ _ _ he he').1⟩

end Pass

end MeshLimiter
