import MeshLimiter.Proofs.Pass.Outcome
/-!
# Passes that are overtaken

A limiter may be deleted and made anew while a pass over its metrics is still about to look whether
it is of interest. If that pass looks in between, it takes its entry out, which the pass over the
new limiter may have got already. That pass then finds that the entry is not the limiter's any more,
leaves the limiter alone, and succeeds. Unless the limiter is passed over as unchanged, this is the
only way to succeed without having noted it as applied.

* **`Pass.TakenOut`**: the entry of a pass was taken out by the other side;
* **`Pass.Attends`**, **`Pass.attends_leads`**: what the sides keep of that pass;
* **`Pass.recorded_iff`**: a pass that succeeds notes its limiter exactly if its entry was not taken
  out.
-/

namespace MeshLimiter

open Interleaving

namespace Pass

open Program (Runs runs_done)

variable {R : Answering} {s : Settings} {id : ResourceId} {l : Limiter}

/-! ## Entries that are taken out

Whether the entry of a pass was taken out is read off what has happened since the pass began. -/

variable {e : EntryId} {events : List Event} {past past' : List (Occurrence Side Unit)}

/-- Since the changes side has begun, it has got an entry, and after that the other side has taken
the entry of the limiter out. -/
def TakenOut (id : ResourceId) (past : List (Occurrence Side Unit)) : Prop :=
  ∃ (later earlier : List (Occurrence Side Unit)) (e : EntryId),
    past = later ++ .did .metrics ⟨.removeEntry id, ()⟩ :: earlier ∧
    (∀ note, .began .changes note ∉ later) ∧
    (⟨.makeEntry id, e⟩ : Event) ∈ sinceBegan .changes earlier

/-- The limiter was found to be of no interest once an entry was got. -/
def Denied (id : ResourceId) (events : List Event) : Prop :=
  ∃ e : EntryId, List.Sublist [⟨.isInterested id, false⟩, ⟨.makeEntry id, e⟩] events

/-- Where no entry was got, none can have been of no interest. -/
theorem Unmade.not_denied (h : Unmade id events) : ¬ Denied id events :=
  fun ⟨e, hdenied⟩ => h e (hdenied.subset (by simp))

/-- Only a look that finds no interest makes the difference. -/
theorem Denied.of_cons {event : Event} (h : Denied id (event :: events))
    (hne : event ≠ ⟨.isInterested id, false⟩) : Denied id events := by
  obtain ⟨e, hdenied⟩ := h
  rcases List.sublist_cons_iff.1 hdenied with hdenied | ⟨rest, heq, -⟩
  · exact ⟨e, hdenied⟩
  · exact absurd (List.cons.inj heq).1.symm hne

/-- What a side has done stays among what it has done, until it begins anew. -/
theorem mem_sinceBegan_append {later earlier : List (Occurrence Side Unit)} {event : Event}
    (hlater : ∀ note, .began .changes note ∉ later) (h : event ∈ sinceBegan .changes earlier) :
    event ∈ sinceBegan .changes (later ++ earlier) := by
  induction later with
  | nil => exact h
  | cons o later ih =>
    -- nothing later begins on the changes side, so its past only grows
    have hrest := ih fun note hnote => hlater note (List.mem_cons_of_mem _ hnote)
    cases o with
    | began t note =>
      have ht : t ≠ .changes := by
        rintro rfl
        exact hlater note List.mem_cons_self
      show event ∈ (if t = .changes then [] else sinceBegan .changes (later ++ earlier))
      rw [if_neg ht]
      exact hrest
    | did t done =>
      show event ∈ (if t = .changes then done :: sinceBegan .changes (later ++ earlier)
        else sinceBegan .changes (later ++ earlier))
      split
      · exact List.mem_cons_of_mem _ hrest
      · exact hrest

/-- An entry that was taken out was got before. -/
theorem TakenOut.not_unmade (h : TakenOut id past) : ¬ Unmade id (sinceBegan .changes past) := by
  obtain ⟨later, earlier, e, rfl, hlater, hmade⟩ := h
  exact fun hunmade => hunmade e (mem_sinceBegan_append hlater hmade)

/-- An event takes the entry out if it is the removal by the other side, and an entry was got. -/
theorem takenOut_did {t : Side} {event : Event} : TakenOut id (.did t event :: past) ↔
    TakenOut id past ∨ (t = .metrics ∧ event = ⟨.removeEntry id, ()⟩) ∧
      ¬ Unmade id (sinceBegan .changes past) := by
  constructor
  · -- the last event is the one that takes the entry out, or it was taken out before
    rintro ⟨later, earlier, e, heq, hlater, hmade⟩
    cases later with
    | nil =>
      obtain ⟨hdid, rfl⟩ := List.cons.inj heq
      obtain ⟨rfl, rfl⟩ := Occurrence.did.inj hdid
      exact .inr ⟨⟨rfl, rfl⟩, fun hunmade => hunmade e hmade⟩
    | cons o later =>
      obtain ⟨-, rfl⟩ := List.cons.inj heq
      exact .inl ⟨later, earlier, e, rfl, fun note hnote =>
        hlater note (List.mem_cons_of_mem _ hnote), hmade⟩
  · rintro (⟨later, earlier, e, rfl, hlater, hmade⟩ | ⟨⟨rfl, rfl⟩, hmade⟩)
    · refine ⟨.did t event :: later, earlier, e, rfl, fun note hnote => ?_, hmade⟩
      rcases List.mem_cons.1 hnote with heq | hnote
      · cases heq
      · exact hlater note hnote
    · obtain ⟨e, he⟩ := Classical.not_forall_not.1 hmade
      exact ⟨[], past, e, rfl, fun _ => List.not_mem_nil, he⟩

/-- Any other event takes nothing out. -/
theorem takenOut_did_of_ne {t : Side} {event : Event}
    (hne : t = .metrics → event ≠ ⟨.removeEntry id, ()⟩) :
    TakenOut id (.did t event :: past) ↔ TakenOut id past := by
  rw [takenOut_did]
  exact ⟨fun h => h.elim (fun h => h) fun h => absurd h.1.2 (hne h.1.1), .inl⟩

/-- What a side does itself does not take its own entry out. -/
@[simp] theorem takenOut_did_changes {event : Event} :
    TakenOut id (.did .changes event :: past) ↔ TakenOut id past :=
  takenOut_did_of_ne nofun

/-- Nor does the other side by beginning on a pass. -/
theorem takenOut_began {note : Unit} :
    TakenOut id (.began .metrics note :: past) ↔ TakenOut id past := by
  constructor
  · rintro ⟨later, earlier, e, heq, hlater, hmade⟩
    cases later with
    | nil => cases (List.cons.inj heq).1
    | cons o later =>
      obtain ⟨-, rfl⟩ := List.cons.inj heq
      exact ⟨later, earlier, e, rfl, fun note hnote =>
        hlater note (List.mem_cons_of_mem _ hnote), hmade⟩
  · rintro ⟨later, earlier, e, rfl, hlater, hmade⟩
    refine ⟨.began .metrics note :: later, earlier, e, rfl, fun note' hnote => ?_, hmade⟩
    rcases List.mem_cons.1 hnote with heq | hnote
    · cases heq
    · exact hlater note' hnote

/-! ## What the sides keep

The invariant says for each phase of the pass what may still be counted on. -/

/-- The other side is not about to take out the entry of the limiter. -/
def Unthreatened (v : Scene) : Place → Prop
  | some (.dropping e) | some (.asked e false) => v.current ≠ some e
  | _ => True

/-- The limiter is of interest, and the entry that was got is still its own unless it was taken
out. -/
def Awaits (id : ResourceId) (v : Scene) (made : Nat) (past : List (Occurrence Side Unit))
    (e : EntryId) :
    Prop :=
  v.wanted = true ∧ e.index < made ∧ (v.current = some e ↔ ¬ TakenOut id past)

/-- The limiter is of interest, and the entry that was got will not be taken out. -/
def Secure (id : ResourceId) (v : Scene) (past : List (Occurrence Side Unit)) (metrics : Place) :
    Prop :=
  v.wanted = true ∧ ¬ TakenOut id past ∧ Unthreatened v metrics

/-- What holds while a changed limiter is passed over; `made` entries were made so far, and the
other side is at `metrics`. -/
def Attended (id : ResourceId) (v : Scene) (made : Nat) (past : List (Occurrence Side Unit))
    (metrics : Place) : Place → Prop
  | some .entering => v.wanted = true
  | some (.waiting e) | some (.holding e) => Awaits id v made past e
  | some (.asked e wanted) => wanted = true ∧ Awaits id v made past e
  | some (.working _) => Secure id v past metrics ∧ ¬ Denied id (sinceBegan .changes past)
  | some (.dropping _) => False
  | some (.leaving _) => TakenOut id past ∧ ¬ Denied id (sinceBegan .changes past)
  | none => Unmade id (sinceBegan .changes past) ∨ ¬ Denied id (sinceBegan .changes past) ∧
      ((∃ e, Checked id e (sinceBegan .changes past)) ∧ Secure id v past metrics ∨
        (∀ e, ¬ Checked id e (sinceBegan .changes past)) ∧ TakenOut id past)
  | _ => True

variable {v v' : Scene} {made made' : Nat} {metrics metrics' place : Place}

/-- To take an entry out one holds its lock. -/
theorem unthreatened_of_lock (h : ∀ φ e, metrics = some φ → φ.lock? = some e → v.current ≠ some e) :
    Unthreatened v metrics := by
  cases metrics with
  | none => trivial
  | some φ =>
    cases φ with
    | dropping e => exact h _ e rfl rfl
    | asked e wanted => cases wanted with
      | true => trivial
      | false => exact h _ e rfl rfl
    | _ => trivial

namespace Attended

/-- Something happens that is not the doing of the side that passes over the limiter. -/
theorem imp (h : Attended id v made past metrics place)
    (htraced : ∀ φ, place = some φ → Traced id φ (sinceBegan .changes past))
    (hwanted : v'.wanted = v.wanted)
    (hevents : sinceBegan .changes past' = sinceBegan .changes past)
    (htaken : TakenOut id past → TakenOut id past')
    (hawaits : ∀ e, ¬ Unmade id (sinceBegan .changes past) → Awaits id v made past e →
      Awaits id v' made' past' e)
    (hsecure : Secure id v past metrics → Secure id v' past' metrics') :
    Attended id v' made' past' metrics' place := by
  -- in the phases with an entry, that entry was got since the pass began
  have hmade : ∀ {e : EntryId} (before rest : List Event),
      sinceBegan .changes past = rest ++ ⟨.makeEntry id, e⟩ :: before →
      ¬ Unmade id (sinceBegan .changes past) := by
    intro e before rest hbefore hunmade
    exact hunmade e (by rw [hbefore]; simp)
  -- each phase keeps what it relies on, by one of the assumptions
  cases place with
  | none =>
    rw [Attended, hevents]
    exact Or.imp_right (And.imp_right (Or.imp (And.imp_right hsecure) (And.imp_right htaken))) h
  | some φ =>
    cases φ with
    | entering => exact hwanted.trans h
    | waiting e | holding e =>
      obtain ⟨before, hbefore, -⟩ := htraced _ rfl
      exact hawaits e (hmade before [] hbefore) h
    | asked e wanted =>
      obtain ⟨before, hbefore, -⟩ := htraced _ rfl
      exact ⟨h.1, hawaits e (hmade before [_] hbefore) h.2⟩
    | working e => exact ⟨hsecure h.1, by rw [hevents]; exact h.2⟩
    | leaving e => exact ⟨htaken h.1, by rw [hevents]; exact h.2⟩
    | dropping e => exact h
    | _ => trivial

/-- The limiter keeps its entry. -/
theorem still (h : Attended id v made past metrics place)
    (htraced : ∀ φ, place = some φ → Traced id φ (sinceBegan .changes past))
    (hwanted : v'.wanted = v.wanted) (hcurrent : v'.current = v.current) (hmade : made ≤ made')
    (hevents : sinceBegan .changes past' = sinceBegan .changes past)
    (htaken : TakenOut id past' ↔ TakenOut id past)
    (hthreat : v.wanted = true → Unthreatened v metrics → Unthreatened v' metrics') :
    Attended id v' made' past' metrics' place := by
  refine h.imp htraced hwanted hevents htaken.2 ?_ ?_
  · rintro e - ⟨hw, hlt, hiff⟩
    exact ⟨hwanted.trans hw, by omega, by rw [hcurrent, htaken]; exact hiff⟩
  · rintro ⟨hw, hnot, hthreats⟩
    exact ⟨hwanted.trans hw, fun htakenOut => hnot (htaken.1 htakenOut), hthreat hw hthreats⟩

/-- The other side makes an entry for a limiter that has none. -/
theorem entryMade (h : Attended id v made past metrics place)
    (htraced : ∀ φ, place = some φ → Traced id φ (sinceBegan .changes past))
    (hnone : v.current = none)
    (hmade : made ≤ e.index) (hlt : e.index < made')
    (hevents : sinceBegan .changes past' = sinceBegan .changes past)
    (htaken : TakenOut id past' ↔ TakenOut id past) :
    Attended id { v with current := some e } made' past' (some (.waiting e)) place := by
  refine h.imp htraced rfl hevents htaken.2 ?_ ?_
  · rintro e' - ⟨hw, hlt', hiff⟩
    refine ⟨hw, by omega, ?_⟩
    -- the entry is none that was got before
    rw [htaken, ← hiff, hnone]
    refine iff_of_false (fun heq => ?_) nofun
    obtain rfl := Option.some.inj heq
    omega
  · rintro ⟨hw, hnot, -⟩
    exact ⟨hw, fun htakenOut => hnot (htaken.1 htakenOut), trivial⟩

/-- The other side takes the entry of the limiter out. -/
theorem entryRemoved (h : Attended id v made past (some (.dropping e)) place)
    (htraced : ∀ φ, place = some φ → Traced id φ (sinceBegan .changes past))
    (hcurrent : v.current = some e)
    (hmade : made ≤ made') :
    Attended id { v with current := none } made'
      (.did .metrics ⟨.removeEntry id, ()⟩ :: past) metrics'
      place := by
  refine h.imp htraced rfl rfl (fun htakenOut => takenOut_did.2 (.inl htakenOut)) ?_ ?_
  · rintro e' hgot ⟨hw, hlt, -⟩
    have htaken : TakenOut id (.did .metrics ⟨.removeEntry id, ()⟩ :: past) :=
      takenOut_did.2 (.inr ⟨⟨rfl, rfl⟩, hgot⟩)
    exact ⟨hw, by omega, iff_of_false nofun fun hnot => hnot htaken⟩
  · rintro ⟨-, -, hthreats⟩
    exact absurd hcurrent hthreats

end Attended

/-- What the sides keep while a changed limiter is passed over. -/
structure Attends (s : Settings) (id : ResourceId) (σ : Shared Side Unit) (ph : Side → Place) :
    Prop where
  separate : Separate s id σ ph
  owned : σ.world.held.store.Owns id
  attended : Attended id (σ.world.held.scene s id) σ.world.held.store.entries.length σ.past
    (ph .metrics) (ph .changes)

variable {σ σ' : Shared Side Unit} {ph : Side → Place} {t : Side} {c : Command}

/-- Whatever a side does, entries that were made stay made. -/
theorem performs_extends_store (hR : R.Sound) {r : c.Reply} (hp : Performs R t σ c r σ') :
    σ.world.held.store.Extends σ'.world.held.store := by
  cases hp with
  | step answer => exact (hR answer).extends_store
  | _ => exact .refl _

/-- What a command of a pass that works does not change. -/
theorem performs_works (s : Settings) (id : ResourceId) (hR : R.Sound) {r : c.Reply} (hc : Works c)
    (hp : Performs R t σ c r σ') :
    (σ'.world.held.scene s id).wanted = (σ.world.held.scene s id).wanted ∧
      (σ'.world.held.scene s id).current = (σ.world.held.scene s id).current ∧
      (σ'.past = σ.past ∨ ∃ (a : Step) (r : a.Reply), Works (.step a) ∧
        σ'.past = .did t ⟨a, r⟩ :: σ.past) := by
  cases hp with
  | @step a r w answer =>
    obtain ⟨hwanted, hcurrent⟩ := (hR answer).scene_of_works s id hc
    exact ⟨hwanted, hcurrent, .inr ⟨a, r, hc, rfl⟩⟩
  | _ => exact ⟨rfl, rfl, .inl rfl⟩

namespace Attends

/-- What the side of changes has done fits the phase it is in. -/
theorem traced (h : Attends s id σ ph) :
    ∀ φ, ph .changes = some φ → Traced id φ (sinceBegan .changes σ.past) :=
  fun φ hφ => (h.separate.grounded .changes φ hφ).traced

/-! ### The side of the metrics

Of what this side does, only two things matter: that it may make the entry of the limiter, and that
it may take it out. -/

/-- The other side takes a step by which the limiter keeps its entry. -/
theorem besides (h : Attends s id σ ph) {a : Step} {r : a.Reply} {w : World}
    (ha : a ≠ .removeEntry id) (hmade : σ.world.held.store.Extends w.held.store)
    (hwanted : (w.held.scene s id).wanted = (σ.world.held.scene s id).wanted)
    (hcurrent : (w.held.scene s id).current = (σ.world.held.scene s id).current)
    (hthreat : (σ.world.held.scene s id).wanted = true →
      Unthreatened (σ.world.held.scene s id) (ph .metrics) →
      Unthreatened (w.held.scene s id) place) :
    Attended id (w.held.scene s id) w.held.store.entries.length
      (σ.after .metrics ⟨a, r⟩ w).past place (ph .changes) :=
  h.attended.still h.traced hwanted hcurrent hmade.made rfl
    (takenOut_did_of_ne fun _ heq => ha (congrArg Event.step heq)) hthreat

/-- It looks at something. -/
theorem looks (hR : R.Sound) (h : Attends s id σ ph) {a : Step} {r : a.Reply}
    (ha : a.isQuiet = true) (hp : Performs R .metrics σ (.step a) r σ')
    (hthreat : (σ.world.held.scene s id).wanted = true →
      Unthreatened (σ.world.held.scene s id) (ph .metrics) →
      Unthreatened (σ.world.held.scene s id) place) :
    Attended id (σ'.world.held.scene s id) σ'.world.held.store.entries.length σ'.past place
      (ph .changes) := by
  obtain ⟨w, answer, rfl⟩ := performs_step.1 hp
  have hheld : w.held = σ.world.held := (hR answer).held_of_isQuiet ha
  have hne : a ≠ .removeEntry id := by
    rintro rfl
    cases ha
  have hscene : w.held.scene s id = σ.world.held.scene s id := by rw [hheld]
  -- the scene is as it was, so only the threat of the new place is left to show
  refine h.besides hne (hR answer).extends_store (congrArg Scene.wanted hscene)
    (congrArg Scene.current hscene) ?_
  show _ → _ → Unthreatened (w.held.scene s id) place
  rw [hscene]
  exact hthreat

/-- It gets the entry of the limiter, or makes one. -/
theorem makes (hR : R.Sound) (h : Attends s id σ ph)
    (hp : Performs R .metrics σ (.step (.makeEntry id)) e σ') :
    Attended id (σ'.world.held.scene s id) σ'.world.held.store.entries.length σ'.past
      (some (.waiting e)) (ph .changes) := by
  obtain ⟨w, answer, rfl⟩ := performs_step.1 hp
  obtain ⟨hcurrent, hscene⟩ := (hR answer).scene_makeEntry s
  have hne : Step.makeEntry id ≠ .removeEntry id := by
    rintro ⟨⟩
  -- the limiter has no entry yet and gets a new one, or the entry stays the one it was
  rcases hcurrent with hnone | hsome
  · obtain ⟨he, hheld⟩ := (hR answer).makeEntry
    have hindex : e.index = σ.world.held.store.entries.length ∧
        e.index < w.held.store.entries.length := by
      have hfind : σ.world.held.store.find? id = none := hnone
      rw [he, hheld, MaterialStore.entry, hfind]
      simp
    rw [show (σ.after .metrics ⟨.makeEntry id, e⟩ w).world = w from rfl, hscene]
    exact h.attended.entryMade h.traced hnone (Nat.le_of_eq hindex.1.symm) hindex.2 rfl
      (takenOut_did_of_ne fun _ heq => hne (congrArg Event.step heq))
  · have hwanted : (w.held.scene s id).wanted = (σ.world.held.scene s id).wanted := by rw [hscene]
    have hkept : (w.held.scene s id).current = (σ.world.held.scene s id).current := by
      rw [hscene, hsome]
    exact h.besides hne (hR answer).extends_store hwanted hkept fun _ _ => trivial

/-- Whatever the side of metrics does, the pass of the other side still has what it relies on. -/
theorem metrics_leads (hR : R.Sound) (h : Attends s id σ ph) {r : c.Reply}
    (hl : Leads s id .metrics (ph .metrics) c r place) (hp : Performs R .metrics σ c r σ') :
    Attended id (σ'.world.held.scene s id) σ'.world.held.store.entries.length σ'.past place
      (ph .changes) := by
  generalize hφ : ph .metrics = φ at hl
  cases hl with
  | @look _ a r looks =>
    refine h.looks hR ?_ hp fun _ _ => trivial
    cases a with
    | isInterested | findEntry | readEntry | findApplied | count => rfl
    | _ => cases looks
  | interested => exact h.looks hR rfl hp fun _ _ => trivial
  | makeEntry e => exact h.makes hR hp
  | acquire =>
    obtain ⟨-, rfl⟩ := performs_acquire.1 hp
    exact h.attended.still h.traced rfl rfl (Nat.le_refl _) rfl .rfl fun _ _ => trivial
  | isInterested wanted =>
    refine h.looks hR rfl hp fun hw _ => ?_
    -- a limiter of interest is found to be so
    obtain ⟨w, answer, -⟩ := performs_step.1 hp
    obtain rfl : wanted = true := (hR answer).isInterested.trans hw
    trivial
  | @findEntry _ e wanted current =>
    refine h.looks hR rfl hp fun _ hthreats => ?_
    obtain ⟨w, answer, -⟩ := performs_step.1 hp
    have hcurrent : (σ.world.held.scene s id).current = current := (hR answer).findEntry.symm
    by_cases hsame : current = some e
    · rw [Phase.afterLook_of_eq hsame]
      cases wanted with
      | true => trivial
      | false =>
        rw [hφ] at hthreats
        exact absurd (hcurrent.trans hsame) hthreats
    · rw [Phase.afterLook_of_ne hsame]
      trivial
  | work works =>
    have hmade := (performs_extends_store hR hp).made
    obtain ⟨hwanted, hcurrent, hpast⟩ := performs_works s id hR works hp
    refine h.attended.still h.traced hwanted hcurrent hmade ?_ ?_ fun _ _ => trivial
    · rcases hpast with hpast | ⟨a, r, -, hpast⟩
      · rw [hpast]
      · rw [hpast]
        rfl
    · rcases hpast with hpast | ⟨a, r, ha, hpast⟩
      · rw [hpast]
      · rw [hpast]
        refine takenOut_did_of_ne fun _ heq => ?_
        obtain rfl : a = .removeEntry id := congrArg Event.step heq
        exact ha
  | @removeEntry _ e =>
    have hcurrent := (h.separate.grounded .metrics _ hφ).fit e rfl
    have hattended := h.attended
    rw [hφ] at hattended
    obtain ⟨w, answer, rfl⟩ := performs_step.1 hp
    show Attended id (w.held.scene s id) _ _ _ _
    rw [(hR answer).scene_removeEntry]
    exact hattended.entryRemoved h.traced hcurrent (hR answer).extends_store.made
  | release =>
    obtain rfl := performs_release.1 hp
    exact h.attended.still h.traced rfl rfl (Nat.le_refl _) rfl .rfl fun _ _ => trivial
  | count event => exact h.looks hR rfl hp fun _ _ => trivial

/-! ### The side of the changes

This side goes through its phases, and in each of them learns what the next one relies on. -/

/-- What a side does itself leaves alone what it waits for. -/
theorem awaits_of_own {a : Step} {r : a.Reply} (h : Awaits id v made past e)
    (hwanted : v'.wanted = v.wanted) (hcurrent : v'.current = v.current) (hmade : made ≤ made') :
    Awaits id v' made' (.did .changes ⟨a, r⟩ :: past) e :=
  ⟨hwanted.trans h.1, by have := h.2.1; omega, by rw [hcurrent, takenOut_did_changes]; exact h.2.2⟩

/-- The pass gets the entry of the limiter, or makes one. -/
theorem gets (hR : R.Sound) (h : Attends s id σ ph) (hφ : ph .changes = some .entering)
    (hp : Performs R .changes σ (.step (.makeEntry id)) e σ') :
    Attended id (σ'.world.held.scene s id) σ'.world.held.store.entries.length σ'.past metrics
      (some (.waiting e)) := by
  have hwanted := h.attended
  rw [hφ] at hwanted
  have hunmade : Unmade id (sinceBegan .changes σ.past) := h.traced _ hφ
  obtain ⟨w, answer, rfl⟩ := performs_step.1 hp
  obtain ⟨-, hscene⟩ := (hR answer).scene_makeEntry s
  have hcurrent : (w.held.scene s id).current = some e := by rw [hscene]
  refine ⟨?_, (hR answer).extends_store.owns h.owned e hcurrent, iff_of_true hcurrent ?_⟩
  · show (w.held.scene s id).wanted = true
    rw [hscene]
    exact hwanted
  · intro htaken
    exact (takenOut_did_changes.1 htaken).not_unmade hunmade

/-- It looks whether the limiter is of interest. -/
theorem asks (hR : R.Sound) (h : Attends s id σ ph) (hφ : ph .changes = some (.holding e))
    {wanted : Bool} (hp : Performs R .changes σ (.step (.isInterested id)) wanted σ') :
    Attended id (σ'.world.held.scene s id) σ'.world.held.store.entries.length σ'.past metrics
      (some (.asked e wanted)) := by
  have hawaits := h.attended
  rw [hφ] at hawaits
  obtain ⟨w, answer, rfl⟩ := performs_step.1 hp
  have hscene : w.held.scene s id = σ.world.held.scene s id := by
    rw [(hR answer).held_of_isQuiet rfl]
  exact ⟨(hR answer).isInterested.trans hawaits.1,
    awaits_of_own hawaits (congrArg Scene.wanted hscene)
    (congrArg Scene.current hscene) (hR answer).extends_store.made⟩

/-- It looks whether the entry is still that of the limiter. If it is, then its lock keeps the other
side from taking it out. -/
theorem finds (hR : R.Sound) (h : Attends s id σ ph) {wanted : Bool}
    (hφ : ph .changes = some (.asked e wanted)) {current : Option EntryId}
    (hp : Performs R .changes σ (.step (.findEntry id)) current σ') :
    Attended id (σ'.world.held.scene s id) σ'.world.held.store.entries.length σ'.past (ph .metrics)
      (some (.afterLook e wanted current)) := by
  have hattended := h.attended
  rw [hφ] at hattended
  obtain ⟨rfl, hw, -, hiff⟩ := hattended
  have howner := (h.separate.grounded .changes _ hφ).lock e rfl
  obtain ⟨before, hbefore, hunmade⟩ := h.traced _ hφ
  obtain ⟨w, answer, rfl⟩ := performs_step.1 hp
  have hcurrent : (σ.world.held.scene s id).current = current := (hR answer).findEntry.symm
  have hscene : w.held.scene s id = σ.world.held.scene s id := by
    rw [(hR answer).held_of_isQuiet rfl]
  -- the interest was looked at before, and found
  have hdenied : ¬ Denied id (sinceBegan .changes
      (σ.after .changes ⟨.findEntry id, current⟩ w).past) := by
    intro hdenied
    have hevents : Denied id (⟨.findEntry id, current⟩ :: sinceBegan .changes σ.past) := hdenied
    rw [hbefore] at hevents
    exact hunmade.not_denied (((hevents.of_cons nofun).of_cons nofun).of_cons nofun)
  show Attended id (w.held.scene s id) _ _ _ _
  rw [hscene]
  -- the entry is still the limiter's just if it was not taken out
  by_cases hsame : current = some e
  · rw [Phase.afterLook_of_eq hsame, if_pos rfl]
    have hkept := hiff.1 (hcurrent.trans hsame)
    refine ⟨⟨hw, fun htaken => hkept (takenOut_did_changes.1 htaken), ?_⟩, hdenied⟩
    -- nobody else can take it out: its lock is held here
    refine unthreatened_of_lock fun φ e' hmetrics hlock hcurrent' => ?_
    obtain rfl := Option.some.inj (hsame.symm.trans (hcurrent.symm.trans hcurrent'))
    have howner' := (h.separate.grounded .metrics φ hmetrics).lock e hlock
    cases howner.symm.trans howner'
  · rw [Phase.afterLook_of_ne hsame]
    refine ⟨takenOut_did_changes.2 (not_not.1 fun hnot => ?_), hdenied⟩
    exact hsame (hcurrent.symm.trans (hiff.2 hnot))

/-- A pass that works goes on. -/
theorem workingOn (hR : R.Sound) (h : Attends s id σ ph) (hφ : ph .changes = some (.working e))
    {r : c.Reply} (hc : Works c) (hp : Performs R .changes σ c r σ') :
    Attended id (σ'.world.held.scene s id) σ'.world.held.store.entries.length σ'.past (ph .metrics)
      (some (.working e)) := by
  have hattended := h.attended
  rw [hφ] at hattended
  obtain ⟨⟨hw, hkept, hthreats⟩, hdenied⟩ := hattended
  obtain ⟨hwanted, hcurrent, hpast⟩ := performs_works s id hR hc hp
  have hunthreatened : Unthreatened (σ'.world.held.scene s id) (ph .metrics) := by
    unfold Unthreatened at hthreats ⊢
    rw [hcurrent]
    exact hthreats
  -- a working pass adds no look at the interest to what it has done
  rcases hpast with hpast | ⟨a, r, ha, hpast⟩
  · rw [hpast]
    exact ⟨⟨hwanted.trans hw, hkept, hunthreatened⟩, hdenied⟩
  · rw [hpast]
    refine ⟨⟨hwanted.trans hw, fun htaken => hkept (takenOut_did_changes.1 htaken), hunthreatened⟩,
      fun hevents => ?_⟩
    have hnow : Denied id (⟨a, r⟩ :: sinceBegan .changes σ.past) := hevents
    refine hdenied (hnow.of_cons fun heq => ?_)
    obtain rfl : a = .isInterested id := congrArg Event.step heq
    exact ha

/-- A pass gives back its lock. -/
theorem gives (h : Attends s id σ ph) {φ : Phase} (hφ : ph .changes = some φ)
    (ends : φ = .working e ∨ φ = .leaving e) :
    Attended id (σ.world.held.scene s id) σ.world.held.store.entries.length σ.past
      (ph .metrics) none := by
  have hattended := h.attended
  have htraced := h.traced φ hφ
  rw [hφ] at hattended
  rcases ends with rfl | rfl
  · exact .inr ⟨hattended.2, .inl ⟨⟨e, (htraced e).2 rfl⟩, hattended.1⟩⟩
  · exact .inr ⟨hattended.2, .inr ⟨htraced, hattended.1⟩⟩

/-- A pass that is over is counted. -/
theorem counts (hR : R.Sound) (h : Attends s id σ ph) (hφ : ph .changes = none)
    {event : PassEvent} {r : Unit} (hp : Performs R .changes σ (.step (.count event)) r σ') :
    Attended id (σ'.world.held.scene s id) σ'.world.held.store.entries.length σ'.past
    (ph .metrics) none := by
  have hattended := h.attended
  rw [hφ] at hattended
  obtain ⟨w, answer, rfl⟩ := performs_step.1 hp
  have hscene : w.held.scene s id = σ.world.held.scene s id := by
    rw [(hR answer).held_of_isQuiet rfl]
  show Attended id (w.held.scene s id) _ _ _ _
  rw [hscene]
  -- counting is neither a check, a denial nor a taking out, so all three are as before
  refine Or.imp (fun hunmade => Unmade.cons hunmade nofun) (fun ⟨hdenied, hover⟩ =>
    ⟨fun hnow => hdenied (Denied.of_cons hnow nofun), hover.imp ?_ ?_⟩) hattended
  · rintro ⟨⟨e, he⟩, hw, hkept, hthreats⟩
    exact ⟨⟨e, he.cons _⟩, hw, fun htakenOut => hkept (takenOut_did_changes.1 htakenOut), hthreats⟩
  · rintro ⟨hnone, htakenOut⟩
    exact ⟨fun e he => hnone e (Checked.of_cons he nofun), takenOut_did_changes.2 htakenOut⟩

/-- Whatever the side of changes does, it goes on to a phase that has what it relies on. -/
theorem changes_leads (hR : R.Sound) (h : Attends s id σ ph) {r : c.Reply}
    (hl : Leads s id .changes (ph .changes) c r place) (hp : Performs R .changes σ c r σ') :
    Attended id (σ'.world.held.scene s id) σ'.world.held.store.entries.length σ'.past
      (ph .metrics) place := by
  -- by cases on the command; each case is one of the lemmas above
  generalize hφ : ph .changes = φ at hl
  cases hl with
  | addInterest =>
    obtain ⟨w, answer, rfl⟩ := performs_step.1 hp
    exact congrArg Scene.wanted ((hR answer).scene_addInterest (s := s))
  | makeEntry e => exact h.gets hR hφ hp
  | acquire =>
    obtain ⟨-, rfl⟩ := performs_acquire.1 hp
    have hattended := h.attended
    rw [hφ] at hattended
    exact hattended
  | isInterested wanted => exact h.asks hR hφ hp
  | findEntry current => exact h.finds hR hφ hp
  | work works => exact h.workingOn hR hφ works hp
  | removeEntry =>
    have hattended := h.attended
    rw [hφ] at hattended
    exact hattended.elim
  | release ends =>
    obtain rfl := performs_release.1 hp
    exact h.gives hφ ends
  | count event => exact h.counts hR hφ hp
  | giveUp =>
    obtain rfl := performs_release.1 hp
    exact .inl (h.traced _ hφ)
  | lookFor found => cases found <;> trivial
  | _ => trivial

end Attends

/-- **The protocol keeps what holds while a changed limiter is passed over.** -/
theorem attends_leads (hR : R.Sound) (h : Attends s id σ ph) {r : c.Reply}
    (hl : Leads s id t (ph t) c r place) (hp : Performs R t σ c r σ') :
    Attends s id σ' (Function.update ph t place) where
  separate := separate_leads hR h.separate rfl hl hp
  owned := (performs_extends_store hR hp).owns h.owned
  attended := by
    cases t with
    | changes =>
      rw [Function.update_self, Function.update_of_ne (by decide)]
      exact h.changes_leads hR hl hp
    | metrics =>
      rw [Function.update_self, Function.update_of_ne (by decide)]
      exact h.metrics_leads hR hl hp

/-! ## A pass that succeeds

A pass that succeeds has noted its limiter, unless its entry was taken out. -/

/-- What the sides begin on, of which some may begin on nothing. Others leave the limiter alone, and
they unmake no entry. -/
def sidesWhile (R : Answering) (s : Settings) (id : ResourceId) (may : Side → Prop) :
    Rules Side Unit (Except PassError Unit) where
  answers := R
  begins t _ w p w' := may t ∧ Starts s id t p ∧ w' = w
  outside σ w := Spares id σ.world w ∧
    σ.world.held.store.entries.length ≤ w.held.store.entries.length

/-- A side begins on something. -/
theorem Attends.started (h : Attends s id σ ph) (t : Side) (note : Unit) :
    Attends s id (σ.started t note σ.world) (Function.update ph t (some .outside)) where
  separate := h.separate.started t note
  owned := h.owned
  attended := by
    cases t with
    | changes =>
      rw [Function.update_self]
      trivial
    | metrics =>
      rw [Function.update_self, Function.update_of_ne (by decide)]
      exact h.attended.still h.traced rfl rfl (Nat.le_refl _) (if_neg (by decide)) takenOut_began
        fun _ _ => trivial

/-- The sides keep the invariant, whichever of them may still begin on something. -/
theorem obey_sidesWhile (hR : R.Sound) {may : Side → Prop}
    {post : Side → Except PassError Unit → Place → Prop}
    (hstarts : ∀ t p, may t → Starts s id t p → p.Follows (Leads s id t) (post t) (some .outside)) :
    (sidesWhile R s id may).Obey (Attends s id) (Leads s id) post where
  leads _ _ _ _ _ _ _ h hl hp := attends_leads hR h hl hp
  begins := by
    rintro t note σ ph y p w h - ⟨hmay, hstart, rfl⟩
    exact ⟨some .outside, h.started t note, hstarts t p hmay hstart⟩
  outside := by
    -- what goes on outside may add entries, but spares that of the limiter
    rintro σ ph w h ⟨spares, hmade⟩
    refine ⟨h.separate.spared spares, fun e he => ?_, ?_⟩
    · exact Nat.lt_of_lt_of_le (h.owned e (spares.2.symm.trans he)) hmade
    · refine h.attended.still h.traced spares.1 spares.2 hmade rfl .rfl fun _ hthreats => ?_
      have hcurrent : (w.held.scene s id).current = (σ.world.held.scene s id).current := spares.2
      unfold Unthreatened at hthreats ⊢
      rw [hcurrent]
      exact hthreats

/-- **When the pass over a changed limiter has noted it as applied.** Let the sides have begun with
nothing, and done what they like. Then let the limiter be reconciled, and let this succeed; the
other side may begin on further passes all the while. The pass has not found the limiter to be of no
interest. The limiter was passed over as unchanged, or it was noted as applied, with its generation
and its specification, exactly if the entry that the pass had got was not taken out by the other
side. If it was, then the pass has done nothing for its limiter. -/
theorem recorded_iff (hR : R.Sound) {x₀ x₁ x₂ : Parties Side Unit (Except PassError Unit)}
    (hidle : ∀ t, ∃ y, x₀.left t = .done y) (hpast : x₀.shared.past = [])
    (howns : x₀.shared.world.held.store.Owns id) (hkey : keyOf l = .ok id)
    (hbefore : Reaches (sidesWhile R s id fun _ => True) x₀ x₁)
    (hduring : Reaches (sidesWhile R s id (· = .metrics))
      (x₁.begun .changes () (reconcile s l).run) x₂)
    (hok : x₂.left .changes = .done (.ok ())) :
    ¬ Denied id (sinceBegan .changes x₂.shared.past) ∧
      (PassedOver (sinceBegan .changes x₂.shared.past) ∨
        (Recorded id l (sinceBegan .changes x₂.shared.past) ↔ ¬ TakenOut id x₂.shared.past) ∧
        (TakenOut id x₂.shared.past →
          ∀ event ∈ sinceBegan .changes x₂.shared.past, event.step.isSlight = true)) := by
  -- what holds when the pass begins
  have hstart : Follow (Attends s id) (Leads s id) (fun _ _ _ => True) x₀ := by
    refine ⟨fun _ => none, ⟨.of_idle, howns, .inl ?_⟩, fun t => ?_⟩
    · rw [hpast]
      exact nofun
    · obtain ⟨y, hy⟩ := hidle t
      rw [hy]
      trivial
  obtain ⟨ph₁, hattends₁, hfollows₁⟩ :=
    hbefore.follow (obey_sidesWhile hR fun t p _ h => h.follows) hstart
  have hbegun : Follow (Attends s id) (Leads s id) (fun t _ φ => t = .changes → Passed φ)
      (x₁.begun .changes () (reconcile s l).run) := by
    refine ⟨_, hattends₁.started .changes (), fun t => ?_⟩
    cases t with
    | changes => exact (follows_reconcile hkey).mono fun _ _ hpassed _ => hpassed
    | metrics => exact (hfollows₁ .metrics).mono fun _ _ _ => nofun
  -- and when it ends
  have hobey : (sidesWhile R s id (· = .metrics)).Obey (Attends s id) (Leads s id)
      fun t _ φ => t = .changes → Passed φ := by
    refine obey_sidesWhile hR fun t p ht h => ?_
    subst ht
    exact h.follows.mono fun _ _ _ => nofun
  obtain ⟨ph, hattends, hfollows⟩ := hduring.follow hobey hbegun
  have hpassed : Passed (ph .changes) := by
    have hfollow := hfollows .changes
    rw [hok] at hfollow
    exact hfollow rfl
  have hend : Attended id (x₂.shared.world.held.scene s id)
      x₂.shared.world.held.store.entries.length x₂.shared.past (ph .metrics) none := by
    rcases hpassed with hnone | houtside
    · rw [← hnone]
      exact hattends.attended
    · exact .inl (hattends.traced _ houtside)
  -- what the pass has done is one of its runs
  have hruns : Runs anyReply (reconcile s l).run x₂.shared.world
      (sinceBegan .changes x₂.shared.past).reverse (.ok ()) x₂.shared.world := by
    have hleft : Runs anyReply (x₂.left .changes) x₂.shared.world [] (.ok ()) x₂.shared.world := by
      rw [hok]
      exact runs_done.2 ⟨rfl, rfl, rfl⟩
    have halone : ∀ note w p w', ¬ (sidesWhile R s id (· = .metrics)).begins .changes note
        w p w' := by
      rintro note w p w' ⟨hmay, -⟩
      cases hmay
    have hwhole := hduring.runs_since halone hleft
    rw [List.append_nil] at hwhole
    exact hwhole
  rcases outcome_of_runs_reconcile hkey hruns with hover | hlooked
  · have hdenied : ¬ Denied id (sinceBegan .changes x₂.shared.past) :=
      hend.elim Unmade.not_denied And.left
    exact ⟨hdenied, .inl (List.mem_reverse.1 hover)⟩
  · obtain ⟨⟨e, hmade⟩, hrecorded, hslight⟩ := hlooked.outcome
    rw [List.reverse_reverse] at hrecorded hslight
    rcases hend with hunmade | ⟨hdenied, ⟨hchecked, -, hkept, -⟩ | ⟨hnone, htaken⟩⟩
    · exact absurd (List.mem_reverse.1 hmade) (hunmade e)
    · refine ⟨hdenied, .inr ⟨iff_of_true ?_ hkept, fun htaken => absurd htaken hkept⟩⟩
      exact (hrecorded hchecked).mono fun _ => List.mem_reverse.1
    · have hleft : ∀ event ∈ sinceBegan .changes x₂.shared.past, event.step.isSlight = true :=
        fun event hevent => hslight hnone event (List.mem_reverse.2 hevent)
      exact ⟨hdenied, .inr ⟨iff_of_false (not_recorded_of_isSlight hleft) (not_not.2 htaken),
        fun _ => hleft⟩⟩

/-! ## A limiter that is made anew meanwhile

A late pass over the metrics of a deleted limiter, which meets the first pass over the new one. -/

/-- The reviews were reconciled. -/
def changedBefore : Parties Side Unit (Except PassError Unit) :=
  (idleSides.begun .changes () (reconcile noMetrics (reviewsLimiter 1 [("v1", "1")])).run).turns
    (List.replicate 29 .changes)

/-- A pass over their metrics has found them to be of interest. -/
def lookedAt : Parties Side Unit (Except PassError Unit) :=
  (changedBefore.begun .metrics () (refresh noMetrics (reviewsLimiter 1 [("v1", "1")])).run).turn
    .metrics

/-- Then they were deleted. That pass has got an entry, and is about to take it out for want of
interest. -/
def lateRefresh : Parties Side Unit (Except PassError Unit) :=
  (lookedAt.begun .changes () (delete noMetrics reviews).run).turns
    (List.replicate 11 .changes ++ List.replicate 4 .metrics)

/-- The reviews as they are made anew. -/
def reviewsAnew : Limiter :=
  reviewsLimiter 1 [("v1", "2")]

/-- They are reconciled. -/
def madeAnewMeanwhile : Parties Side Unit (Except PassError Unit) :=
  lateRefresh.begun .changes () (reconcile noMetrics reviewsAnew).run

/-- The entry is taken out before the pass over them has got one. -/
def inTime : Parties Side Unit (Except PassError Unit) :=
  madeAnewMeanwhile.turns (List.replicate 3 .metrics ++ List.replicate 29 .changes)

/-- The entry is taken out once the pass over them has got it. -/
def overtaken : Parties Side Unit (Except PassError Unit) :=
  madeAnewMeanwhile.turns
    (List.replicate 5 .changes ++ List.replicate 2 .metrics ++ List.replicate 5 .changes)

/-- The sides can come to that. -/
theorem reaches_lateRefresh :
    Reaches (sidesWhile World.Answers noMetrics reviews fun _ => True) idleSides lateRefresh := by
  have hperform : ∀ w a, (sidesWhile World.Answers noMetrics reviews fun _ => True).answers w a
      (w.perform a).1 (w.perform a).2 := World.answers_perform
  have hreconcile : (sidesWhile World.Answers noMetrics reviews fun _ => True).begins .changes ()
      idleSides.shared.world (reconcile noMetrics (reviewsLimiter 1 [("v1", "1")])).run
      idleSides.shared.world := ⟨trivial, .inl ⟨_, rfl, rfl⟩, rfl⟩
  have hrefresh : (sidesWhile World.Answers noMetrics reviews fun _ => True).begins .metrics ()
      changedBefore.shared.world (refresh noMetrics (reviewsLimiter 1 [("v1", "1")])).run
      changedBefore.shared.world := ⟨trivial, ⟨_, rfl, rfl⟩, rfl⟩
  have hdelete : (sidesWhile World.Answers noMetrics reviews fun _ => True).begins .changes ()
      lookedAt.shared.world (delete noMetrics reviews).run lookedAt.shared.world :=
    ⟨trivial, .inr rfl, rfl⟩
  -- each side has ended before it begins on the next thing
  obtain ⟨hready, hchanged⟩ : succeeded (changedBefore.left .metrics) = true ∧
      succeeded (lookedAt.left .changes) = true := by decide +kernel
  have hfirst : Reaches (sidesWhile World.Answers noMetrics reviews fun _ => True) idleSides
      changedBefore :=
    (Parties.reaches_begun rfl hreconcile).trans (Parties.reaches_turns hperform _ _)
  have hsecond : Reaches (sidesWhile World.Answers noMetrics reviews fun _ => True)
      changedBefore lookedAt :=
    (Parties.reaches_begun (eq_done_of_succeeded hready) hrefresh).trans
      (Parties.reaches_turn hperform _ _)
  have hthird : Reaches (sidesWhile World.Answers noMetrics reviews fun _ => True) lookedAt
      lateRefresh :=
    (Parties.reaches_begun (eq_done_of_succeeded hchanged) hdelete).trans
      (Parties.reaches_turns hperform _ _)
  exact (hfirst.trans hsecond).trans hthird

theorem owns_idleSides : idleSides.shared.world.held.store.Owns reviews := by
  intro e he
  have hnone : idleSides.shared.world.held.store.find? reviews = none := by decide +kernel
  cases hnone.symm.trans he

theorem not_passedOver (h : events.any (fun event => event.step.countsUnchanged) = false) :
    ¬ PassedOver events := fun hmem =>
  List.any_eq_false.1 h _ hmem rfl

/-- The pass that gets an entry which stays has noted its limiter. -/
theorem recorded_iff_inTime : ¬ Denied reviews (sinceBegan .changes inTime.shared.past) ∧
    ¬ TakenOut reviews inTime.shared.past ∧
    Recorded reviews reviewsAnew (sinceBegan .changes inTime.shared.past) := by
  have hduring : Reaches (sidesWhile World.Answers noMetrics reviews (· = .metrics))
      (lateRefresh.begun .changes () (reconcile noMetrics reviewsAnew).run) inTime :=
    Parties.reaches_turns World.answers_perform _ _
  obtain ⟨hok, hcounts, hworks⟩ : succeeded (inTime.left .changes) = true ∧
      (sinceBegan .changes inTime.shared.past).any
        (fun event => event.step.countsUnchanged) = false ∧
      (sinceBegan .changes inTime.shared.past).all (fun event => event.step.isSlight) = false := by
    decide +kernel
  obtain ⟨hdenied, hover⟩ := recorded_iff sound_answers (fun _ => ⟨_, rfl⟩) rfl owns_idleSides
    (rfl : keyOf reviewsAnew = .ok reviews) reaches_lateRefresh hduring (eq_done_of_succeeded hok)
  obtain ⟨hiff, hslight⟩ := hover.resolve_left (not_passedOver hcounts)
  have hkept : ¬ TakenOut reviews inTime.shared.past := by
    intro htaken
    rw [List.all_eq_true.2 (hslight htaken)] at hworks
    cases hworks
  exact ⟨hdenied, hkept, hiff.2 hkept⟩

/-- A pass over a changed limiter may succeed though nothing was noted of the limiter. -/
theorem exists_overtaken : ¬ ∀ (s : Settings) (id : ResourceId) (l : Limiter)
    (x₀ x₁ x₂ : Parties Side Unit (Except PassError Unit)),
    (∀ t, ∃ y, x₀.left t = .done y) → x₀.shared.past = [] → x₀.shared.world.held.store.Owns id →
    keyOf l = .ok id → Reaches (sidesWhile World.Answers s id fun _ => True) x₀ x₁ →
    (∃ y, x₁.left .changes = .done y) →
    Reaches (sidesWhile World.Answers s id (· = .metrics))
    (x₁.begun .changes () (reconcile s l).run) x₂ →
    x₂.left .changes = .done (.ok ()) → ¬ PassedOver (sinceBegan .changes x₂.shared.past) →
    Recorded id l (sinceBegan .changes x₂.shared.past) := by
  intro h
  have hduring : Reaches (sidesWhile World.Answers noMetrics reviews (· = .metrics))
      (lateRefresh.begun .changes () (reconcile noMetrics reviewsAnew).run) overtaken :=
    Parties.reaches_turns World.answers_perform _ _
  obtain ⟨hdone, hok, hcounts, hslight⟩ : succeeded (lateRefresh.left .changes) = true ∧
      succeeded (overtaken.left .changes) = true ∧
      (sinceBegan .changes overtaken.shared.past).any
        (fun event => event.step.countsUnchanged) = false ∧
      (sinceBegan .changes overtaken.shared.past).all (fun event => event.step.isSlight)
        = true := by
    decide +kernel
  have hrecorded := h noMetrics reviews reviewsAnew idleSides lateRefresh overtaken
    (fun _ => ⟨_, rfl⟩) rfl
    owns_idleSides rfl reaches_lateRefresh ⟨_, eq_done_of_succeeded hdone⟩ hduring
    (eq_done_of_succeeded hok) (not_passedOver hcounts)
  exact not_recorded_of_isSlight (List.all_eq_true.1 hslight) hrecorded

end Pass

end MeshLimiter
