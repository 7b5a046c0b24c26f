import MeshLimiter.Proofs.Pass.Protocol
import MeshLimiter.Proofs.Pass.Scene
/-!
# What passes and a deletion keep

A limiter may be deleted while a pass over its metrics is under way, wherever that is. Each side
keeps what holds between their phases, the locks and what is held, whatever the other does in
between.

* **`Pass.Together`**: the invariant of the two sides;
* **`Pass.Together.leads`**: each command of the protocol keeps it;
* **`Pass.keeps_passing`**: so does a pass;
* **`Pass.keeps_delete`**: so does a deletion, and if it succeeds, it ends where nothing is left.
-/

namespace MeshLimiter

open Interleaving

/-- Named texts stand where their names say. -/
def Held.Placed (h : Held) : Prop :=
  ∀ (p : ResourceId) (m : ConfigMap), h.configMaps[p]? = some m → m.metadata.id = p

namespace World

variable {w w' : World}

/-- Named texts that are put where their name says leave all in place. -/
theorem placed_insert {h : Held} (hh : h.Placed) (m : ConfigMap) :
    ({ h with configMaps := h.configMaps.insert m.metadata.id m } : Held).Placed := by
  intro p m' hm'
  have hm' : (h.configMaps.insert m.metadata.id m)[p]? = some m' := hm'
  rw [Std.ExtTreeMap.getElem?_insert] at hm'
  split at hm'
  · next heq =>
    obtain rfl := Option.some.inj hm'
    exact Std.LawfulEqCmp.eq_of_compare heq
  · exact hh p m' hm'

/-- So does whatever a call changes. -/
theorem placed_after {h : Held} (hh : h.Placed) (version : String) (c : ClusterCall) :
    (h.after version c).Placed := by
  cases c with
  | createConfigMap m | replaceConfigMap m => exact placed_insert hh (m.atVersion version)
  | _ => exact hh

/-- Only calls change named texts. -/
theorem held_perform_configMaps (w : World) (a : Step) (ha : ∀ c, a ≠ .call c) :
    (w.perform a).2.held.configMaps = w.held.configMaps := by
  cases a with
  | call c => exact absurd rfl (ha c)
  | sendQueries texts =>
    show (texts.foldl (fun w t => w.note ("query " ++ t)) w).held.configMaps = _
    rw [held_note_queries]
  | tryPop name | push name | finish name => cases name <;> rfl
  | _ => rfl

/-- Whatever step is answered, named texts stand where their names say. -/
theorem Answers.placed {a : Step} {r : a.Reply} (h : w.Answers a r w') (hw : w.held.Placed) :
    w'.held.Placed := by
  by_cases ha : ∃ c, a = .call c
  · obtain ⟨c, rfl⟩ := ha
    rcases h.call with ⟨-, hheld⟩ | ⟨version, hheld⟩
    · rw [hheld]
      exact hw
    · rw [hheld]
      exact placed_after hw version c
  · -- only calls change named texts
    have ha : ∀ c, a ≠ .call c := fun c hc => ha ⟨c, hc⟩
    cases h with
    | performed held =>
      intro p m hm
      rw [held_perform_configMaps _ a ha, held] at hm
      exact hw p m hm
    | failed held c => exact absurd rfl (ha c)
    | unsure held c => exact absurd rfl (ha c)

end World

namespace Pass

variable {R : Answering} {s : Settings} {id : ResourceId}

/-! ## The invariant of the two sides

Named texts are in place, and the phases of the two sides fit together with what is held and who
holds which lock. -/

/-- What holds at all times of two sides that work on a limiter. -/
def Together (s : Settings) (id : ResourceId) (σ : Shared Side Unit) (ph : Side → Phase) : Prop :=
  σ.world.held.Placed ∧
    Tied (Registry.FreeOf s id) (σ.world.held.scene s id) σ.owner (ph .changes) (ph .metrics)

namespace Together

variable {σ σ' : Shared Side Unit} {ph : Side → Phase} {t : Side} {e : EntryId} {φ : Phase}

/-- The invariant after a step of the side of changes. -/
theorem update_changes : Together s id σ (Function.update ph .changes φ) ↔ σ.world.held.Placed ∧
    Tied (Registry.FreeOf s id) (σ.world.held.scene s id) σ.owner φ (ph .metrics) := by
  rw [Together, Function.update_self, Function.update_of_ne (by decide : Side.metrics ≠ .changes)]

/-- The invariant after a step of the side of metrics. -/
theorem update_metrics : Together s id σ (Function.update ph .metrics φ) ↔ σ.world.held.Placed ∧
    Tied (Registry.FreeOf s id) (σ.world.held.scene s id) σ.owner (ph .changes) φ := by
  rw [Together, Function.update_self, Function.update_of_ne (by decide : Side.changes ≠ .metrics)]

/-- What only looks leaves all as it is. -/
theorem quiet (hR : R.Sound) (h : Together s id σ ph) {a : Step} {r : a.Reply}
    (ha : a.isQuiet = true) (hp : Performs R t σ (.step a) r σ') : Together s id σ' ph := by
  obtain ⟨w, answer, rfl⟩ := performs_step.1 hp
  have hheld : w.held = σ.world.held := (hR answer).held_of_isQuiet ha
  show w.held.Placed ∧ Tied _ (w.held.scene s id) σ.owner _ _
  rw [hheld]
  exact h

/-- A side has got the entry of the limiter, and waits for its lock. -/
theorem makeEntry (hR : R.Sound) (h : Together s id σ ph)
    (hφ : ph t = match t with | .changes => .entering | .metrics => .outside)
    (hp : Performs R t σ (.step (.makeEntry id)) e σ') :
    Together s id σ' (Function.update ph t (.waiting e)) := by
  obtain ⟨w, answer, rfl⟩ := performs_step.1 hp
  have hplaced := (hR answer).placed h.1
  obtain ⟨hcurrent, hscene⟩ := (hR answer).scene_makeEntry s
  have htied := h.2
  cases t with
  | changes =>
    -- the pass for a change was about to enter
    refine update_changes.2 ⟨hplaced, ?_⟩
    show Tied _ (w.held.scene s id) σ.owner _ _
    rw [hφ] at htied
    rw [hscene]
    exact htied.changes_waiting hcurrent
  | metrics =>
    -- for the other side a pass over metrics begins only here
    refine update_metrics.2 ⟨hplaced, ?_⟩
    show Tied _ (w.held.scene s id) σ.owner _ _
    rw [hφ] at htied
    rw [hscene]
    exact htied.metrics_waiting e

/-- A side has got the lock of its entry. -/
theorem acquire (h : Together s id σ ph) (hφ : ph t = .waiting e) {r : Unit}
    (hp : Performs R t σ (.acquire (.entry e)) r σ') :
    Together s id σ' (Function.update ph t (.holding e)) := by
  obtain ⟨free, rfl⟩ := performs_acquire.1 hp
  have htied := h.2
  cases t with
  | changes =>
    rw [hφ] at htied
    exact update_changes.2 ⟨h.1, htied.changes_holding free⟩
  | metrics =>
    rw [hφ] at htied
    exact update_metrics.2 ⟨h.1, htied.metrics_holding free⟩

/-- A side has looked whether the limiter is of interest. -/
theorem isInterested (hR : R.Sound) (h : Together s id σ ph) (hφ : ph t = .holding e)
    {wanted : Bool} (hp : Performs R t σ (.step (.isInterested id)) wanted σ') :
    Together s id σ' (Function.update ph t (.asked e wanted)) := by
  obtain ⟨hplaced, htied⟩ := h.quiet hR rfl hp
  have hsame : (σ'.world.held.scene s id).wanted = wanted := by
    obtain ⟨w, answer, rfl⟩ := performs_step.1 hp
    exact (hR answer).wanted_of_isInterested
  cases t with
  | changes =>
    rw [hφ] at htied
    exact update_changes.2 ⟨hplaced, hsame ▸ htied.changes_asked⟩
  | metrics =>
    rw [hφ] at htied
    exact update_metrics.2 ⟨hplaced, hsame ▸ htied.metrics_asked⟩

/-- A side has looked whether its entry is still that of the limiter. -/
theorem findEntry (hR : R.Sound) (h : Together s id σ ph) {wanted : Bool}
    (hφ : ph t = .asked e wanted) {current : Option EntryId}
    (hp : Performs R t σ (.step (.findEntry id)) current σ') :
    Together s id σ' (Function.update ph t (.afterLook e wanted current)) := by
  obtain ⟨hplaced, htied⟩ := h.quiet hR rfl hp
  have hsame : (σ'.world.held.scene s id).current = current := by
    obtain ⟨w, answer, rfl⟩ := performs_step.1 hp
    exact (hR answer).current_of_findEntry
  cases t with
  | changes =>
    rw [hφ] at htied
    exact update_changes.2 ⟨hplaced, hsame ▸ htied.changes_afterLook⟩
  | metrics =>
    rw [hφ] at htied
    exact update_metrics.2 ⟨hplaced, hsame ▸ htied.metrics_afterLook⟩

/-- A pass that finds that nobody is interested any more takes the entry out. -/
theorem removeEntry (hR : R.Sound) (h : Together s id σ ph) (hφ : ph t = .dropping e) {r : Unit}
    (hp : Performs R t σ (.step (.removeEntry id)) r σ') :
    Together s id σ' (Function.update ph t (.leaving e)) := by
  obtain ⟨w, answer, rfl⟩ := performs_step.1 hp
  have hplaced := (hR answer).placed h.1
  have htied := h.2
  cases t with
  | changes =>
    rw [hφ] at htied
    -- a pass for a change has made sure that somebody is
    exact htied.changes_not_dropping.elim
  | metrics =>
    refine update_metrics.2 ⟨hplaced, ?_⟩
    show Tied _ (w.held.scene s id) σ.owner _ _
    rw [hφ] at htied
    rw [(hR answer).scene_removeEntry]
    exact htied.metrics_leaving

/-- A side gives up the lock of its entry and is outside again. -/
theorem release (h : Together s id σ ph) (hlock : (ph t).lock? = some e)
    (hdrops : (ph t).drops? = none) {r : Unit} (hp : Performs R t σ (.release (.entry e)) r σ') :
    Together s id σ' (Function.update ph t .outside) := by
  obtain rfl := performs_release.1 hp
  cases t with
  | changes => exact update_changes.2 ⟨h.1, h.2.changes_outside hlock⟩
  | metrics => exact update_metrics.2 ⟨h.1, h.2.metrics_outside hlock hdrops⟩

/-- A pass that works keeps the invariant with each of its commands. -/
theorem works (hR : R.Sound) (h : Together s id σ ph) (hφ : ph t = .working e) {c : Command}
    {r : c.Reply} (hc : Works c) (hp : Performs R t σ c r σ') : Together s id σ' ph := by
  -- whatever keeps the entry, the interest and the locks of entries keeps the invariant
  have hkeep : σ'.world.held.Placed →
      (σ'.world.held.scene s id).wanted = (σ.world.held.scene s id).wanted →
      (σ'.world.held.scene s id).current = (σ.world.held.scene s id).current →
      (∀ e', σ'.owner (.entry e') = σ.owner (.entry e')) → Together s id σ' ph := by
    intro hplaced hwanted hcurrent howner
    have htied := h.2
    refine ⟨hplaced, ?_⟩
    cases t with
    | changes =>
      rw [hφ] at htied ⊢
      exact htied.changes_working hwanted hcurrent howner
    | metrics =>
      rw [hφ] at htied ⊢
      exact htied.metrics_working hwanted hcurrent howner
  -- what is left is that each command of a working pass does so
  cases hp with
  | @step a r w answer =>
    have hplaced := (hR answer).placed h.1
    have hscene := (hR answer).scene_of_works s id hc
    exact hkeep hplaced hscene.1 hscene.2 fun e' => rfl
  | @acquire l free =>
    cases l with
    | entry => cases hc
    | registry =>
      exact hkeep h.1 rfl rfl (σ.owner_hand_registry _)
  | release l =>
    cases l with
    | entry => cases hc
    | registry =>
      exact hkeep h.1 rfl rfl (σ.owner_hand_registry _)
  | sleepUntil => exact h
  | await | retryAfter => cases hc

/-- The limiter comes to be of interest before a pass for a change enters. -/
theorem addInterest (hR : R.Sound) (h : Together s id σ ph) (hφ : ph .changes = .outside) {r : Unit}
    (hp : Performs R .changes σ (.step (.addInterest id)) r σ') :
    Together s id σ' (Function.update ph .changes .entering) := by
  obtain ⟨w, answer, rfl⟩ := performs_step.1 hp
  refine update_changes.2 ⟨(hR answer).placed h.1, ?_⟩
  show Tied _ (w.held.scene s id) σ.owner _ _
  have htied := h.2
  rw [hφ] at htied
  rw [(hR answer).scene_addInterest]
  exact htied.changes_entering

/-! ### The deletion

A deletion goes through its phases alone. What the other side may do meanwhile is told by the
invariant. -/

/-- From here on no pass that has yet to look will go on. -/
theorem dropInterest (hR : R.Sound) (h : Together s id σ ph)
    (hφ : ph .changes = .outside) {r : Unit}
    (hp : Performs R .changes σ (.step (.dropInterest id)) r σ') :
    Together s id σ' (Function.update ph .changes .dropped) := by
  obtain ⟨w, answer, rfl⟩ := performs_step.1 hp
  refine update_changes.2 ⟨(hR answer).placed h.1, ?_⟩
  show Tied _ (w.held.scene s id) σ.owner _ _
  have htied := h.2
  rw [hφ] at htied
  rw [(hR answer).scene_dropInterest]
  exact htied.deletion_dropped

/-- The deletion looks for the entry of the limiter. -/
theorem lookFor (hR : R.Sound) (h : Together s id σ ph) (hφ : ph .changes = .dropped)
    {found : Option EntryId} (hp : Performs R .changes σ (.step (.findEntry id)) found σ') :
    Together s id σ' (Function.update ph .changes (.ofFound found)) := by
  obtain ⟨hplaced, htied⟩ := h.quiet hR rfl hp
  have hsame : (σ'.world.held.scene s id).current = found := by
    obtain ⟨w, answer, rfl⟩ := performs_step.1 hp
    exact (hR answer).current_of_findEntry
  rw [hφ] at htied
  refine update_changes.2 ⟨hplaced, ?_⟩
  cases found with
  | none => exact htied.deletion_missing hsame
  | some e => exact htied.deletion_found hsame

/-- The deletion has got the lock of the entry, so no pass works. -/
theorem lockToCut (h : Together s id σ ph) (hφ : ph .changes = .found e) {r : Unit}
    (hp : Performs R .changes σ (.acquire (.entry e)) r σ') :
    Together s id σ' (Function.update ph .changes (.cutting e)) := by
  obtain ⟨free, rfl⟩ := performs_acquire.1 hp
  have htied := h.2
  rw [hφ] at htied
  exact update_changes.2 ⟨h.1, htied.deletion_cutting free⟩

/-- The entry is taken out. -/
theorem cut (hR : R.Sound) (h : Together s id σ ph) (hφ : ph .changes = .cutting e) {r : Unit}
    (hp : Performs R .changes σ (.step (.removeEntry id)) r σ') :
    Together s id σ' (Function.update ph .changes (.cut e)) := by
  obtain ⟨w, answer, rfl⟩ := performs_step.1 hp
  refine update_changes.2 ⟨(hR answer).placed h.1, ?_⟩
  show Tied _ (w.held.scene s id) σ.owner _ _
  have htied := h.2
  rw [hφ] at htied
  rw [(hR answer).scene_removeEntry]
  exact htied.deletion_cut

/-- The entry is gone, and a pass that still waits for its lock will find that out. -/
theorem unlockCut (h : Together s id σ ph) (hφ : ph .changes = .cut e) {r : Unit}
    (hp : Performs R .changes σ (.release (.entry e)) r σ') :
    Together s id σ' (Function.update ph .changes (.gone .clearing)) := by
  obtain rfl := performs_release.1 hp
  have htied := h.2
  rw [hφ] at htied
  exact update_changes.2 ⟨h.1, htied.deletion_clearing⟩

/-- Once the entry is gone, a step that leaves the entry alone leads to a further stage. -/
theorem goes (hR : R.Sound) (h : Together s id σ ph) {stage stage' : Stage}
    (hφ : ph .changes = .gone stage) {a : Step} {r : a.Reply} {w : World} (answer : R σ.world a r w)
    (hwanted : (w.held.scene s id).wanted = (σ.world.held.scene s id).wanted)
    (hcurrent : (w.held.scene s id).current = (σ.world.held.scene s id).current)
    (hstage : stage.Reached (Registry.FreeOf s id) (σ.world.held.scene s id) σ.owner →
      stage'.Reached (Registry.FreeOf s id) (w.held.scene s id) σ.owner) :
    Together s id (σ.after .changes ⟨a, r⟩ w) (Function.update ph .changes (.gone stage')) := by
  have htied := h.2
  rw [hφ] at htied
  exact update_changes.2 ⟨(hR answer).placed h.1,
    htied.deletion_gone hwanted hcurrent (fun _ => rfl) hstage⟩

/-- What was applied is forgotten. -/
theorem forgetApplied (hR : R.Sound) (h : Together s id σ ph) (hφ : ph .changes = .gone .clearing)
    {r : Unit} (hp : Performs R .changes σ (.step (.setApplied id none)) r σ') :
    Together s id σ' (Function.update ph .changes (.gone .forgetting)) := by
  obtain ⟨w, answer, rfl⟩ := performs_step.1 hp
  refine h.goes hR hφ answer ?_ ?_ fun _ => ?_ <;> rw [(hR answer).setApplied]
  · rfl
  · rfl
  · exact Std.ExtTreeMap.getElem?_erase_self

/-- The subsets that were noted are forgotten. -/
theorem forgetWritten (hR : R.Sound) (h : Together s id σ ph) (hφ : ph .changes = .gone .forgetting)
    {r : Unit} (hp : Performs R .changes σ (.step (.setWritten id none)) r σ') :
    Together s id σ' (Function.update ph .changes (.gone .cleared)) := by
  obtain ⟨w, answer, rfl⟩ := performs_step.1 hp
  refine h.goes hR hφ answer ?_ ?_ fun happlied => ?_ <;> rw [(hR answer).setWritten]
  · rfl
  · rfl
  · exact ⟨happlied, Std.ExtTreeMap.getElem?_erase_self⟩

/-- The deletion has got the registry to itself. -/
theorem lockRegistry (h : Together s id σ ph) (hφ : ph .changes = .gone .cleared) {r : Unit}
    (hp : Performs R .changes σ (.acquire .registry) r σ') :
    Together s id σ' (Function.update ph .changes (.gone .locked)) := by
  obtain ⟨free, rfl⟩ := performs_acquire.1 hp
  have htied := h.2
  rw [hφ] at htied
  exact update_changes.2 ⟨h.1, htied.deletion_gone rfl rfl (σ.owner_hand_registry _)
    fun hreached => ⟨hreached, σ.owner_hand_self .registry _⟩⟩

/-- The registry is got while its lock is held. -/
theorem getRegistry (hR : R.Sound) (h : Together s id σ ph) (hφ : ph .changes = .gone .locked)
    {r : Except ClusterError (Option ConfigMap)}
    (hp : Performs R .changes σ (.step (.call (.configMap s.registry))) r σ') :
    Together s id σ' (Function.update ph .changes (.gone (.ofGot r))) := by
  obtain ⟨w, answer, rfl⟩ := performs_step.1 hp
  have hheld : w.held = σ.world.held := (hR answer).held_of_isQuiet rfl
  refine h.goes hR hφ answer (by rw [hheld]) (by rw [hheld]) fun hreached => ?_
  rw [hheld]
  cases r with
  | ok found => exact ⟨hreached.1, hreached.2, (hR answer).configMap.symm⟩
  | error e => exact hreached

/-- What was got is replaced; after a failure it may or may not be. -/
theorem replaceRegistry (hR : R.Sound) (h : Together s id σ ph) {c : ConfigMap} {new : Registry}
    (hφ : ph .changes = .gone (.read (some c)))
    (hfree : ∀ d ∈ new.descriptors, d.belongsTo id = false) {r : Except ClusterError Unit}
    (hp : Performs R .changes σ (.step (.call (.replaceConfigMap (new.writtenInto c)))) r σ') :
    Together s id σ' (Function.update ph .changes (.gone (.ofReplaced r))) := by
  obtain ⟨w, answer, rfl⟩ := performs_step.1 hp
  have hscene := (hR answer).scene_call s id
  refine h.goes hR hφ answer (by rw [hscene]) (by rw [hscene]) fun hreached => ?_
  have hcleared : (w.held.scene s id).applied = none ∧ (w.held.scene s id).written = none := by
    rw [hscene]
    exact hreached.1
  cases r with
  | error e => exact ⟨hcleared, hreached.2.1⟩
  | ok u =>
    refine ⟨hcleared, hreached.2.1, ?_⟩
    rcases (hR answer).call with ⟨⟨e, he⟩, -⟩ | ⟨version, hheld⟩
    · cases he
    · -- it stands where it was found, for that is where its name says
      have hplace : c.metadata.id = s.registry := h.1 _ c hreached.2.2
      have hnew : (w.held.scene s id).registry = some ((new.writtenInto c).atVersion version) := by
        rw [hheld]
        show (σ.world.held.configMaps.insert c.metadata.id _)[s.registry]? = _
        rw [hplace]
        exact Std.ExtTreeMap.getElem?_insert_self
      rw [hnew]
      exact ⟨new, .inr (Std.ExtTreeMap.getElem?_insert_self), hfree⟩

/-- The lock of the registry is given back once the registry is right. -/
theorem unlockRegistry (h : Together s id σ ph) {stage : Stage} (hφ : ph .changes = .gone stage)
    (knows : stage.Knows (Registry.FreeOf s id)) {r : Unit}
    (hp : Performs R .changes σ (.release .registry) r σ') :
    Together s id σ' (Function.update ph .changes (.gone .free)) := by
  obtain rfl := performs_release.1 hp
  have htied := h.2
  rw [hφ] at htied
  refine update_changes.2 ⟨h.1, htied.deletion_gone rfl rfl (σ.owner_hand_registry none)
    fun hreached => ?_⟩
  cases stage with
  | read found =>
    have hfound : (σ.world.held.scene s id).registry = found := hreached.2.2
    exact ⟨hreached.1, hfound ▸ knows⟩
  | freed => exact ⟨hreached.1, hreached.2.2⟩
  | _ => cases knows

/-- The lock of the registry is given back after a failure. -/
theorem giveUp (h : Together s id σ ph) {stage : Stage} (hφ : ph .changes = .gone stage) {r : Unit}
    (hp : Performs R .changes σ (.release .registry) r σ') :
    Together s id σ' (Function.update ph .changes .outside) := by
  obtain rfl := performs_release.1 hp
  have htied := h.2
  rw [hφ] at htied
  exact update_changes.2 ⟨h.1, htied.deletion_outside (σ.owner_hand_registry none)⟩

end Together

/-! ## Programs

The programs of both sides follow the protocol, so the invariant holds of whatever they come to. -/

/-- The phase of a side, as far as the other side has to know it. A pass over the metrics is outside
until it has an entry. -/
def Side.view : Side → Place → Phase
  | .metrics, some .entering | _, none => .outside
  | _, some φ => φ

/-- **The protocol keeps the invariant.** -/
theorem Together.leads (hR : R.Sound) {σ σ' : Shared Side Unit} {ph : Side → Phase} {t : Side}
    {place place' : Place} {c : Command} {r : c.Reply} (hl : Leads s id t place c r place')
    (h : Together s id σ ph) (hφ : ph t = t.view place) (hp : Performs R t σ c r σ') :
    Together s id σ' (Function.update ph t (t.view place')) := by
  -- what only looks leaves the side where it is
  have hquiet : ∀ {a : Step} {r : a.Reply}, a.isQuiet = true → Performs R t σ (.step a) r σ' →
      Together s id σ' (Function.update ph t (t.view place)) := by
    intro a r ha hp
    rw [← hφ, Function.update_eq_self]
    exact h.quiet hR ha hp
  cases hl with
  | @look _ a _ looks =>
    refine hquiet ?_ hp
    cases a with
    | isInterested | findEntry | readEntry | findApplied | count => rfl
    | _ => cases looks
  | addInterest => exact h.addInterest hR hφ hp
  | interested => exact hquiet rfl hp
  | makeEntry e =>
    cases t with
    | changes => exact h.makeEntry hR hφ hp
    | metrics => exact h.makeEntry hR hφ hp
  | acquire => cases t <;> exact h.acquire hφ hp
  | isInterested wanted => cases t <;> exact h.isInterested hR hφ hp
  | @findEntry _ e wanted current =>
    have hview : t.view (some (.afterLook e wanted current)) = .afterLook e wanted current := by
      unfold Phase.afterLook
      split
      · cases wanted <;> cases t <;> rfl
      · cases t <;> rfl
    rw [hview]
    cases t <;> exact h.findEntry hR hφ hp
  | @work _ e _ _ works =>
    rw [← hφ, Function.update_eq_self]
    cases t <;> exact h.works hR hφ works hp
  | removeEntry => cases t <;> exact h.removeEntry hR hφ hp
  | release ends =>
    rcases ends with rfl | rfl
    all_goals
      cases t <;> exact h.release (by rw [hφ]; rfl) (by rw [hφ]; rfl) hp
  | count event => exact hquiet rfl hp
  | dropInterest => exact h.dropInterest hR hφ hp
  | lookFor found => cases found <;> exact h.lookFor hR hφ hp
  | lockToCut => exact h.lockToCut hφ hp
  | cut => exact h.cut hR hφ hp
  | unlockCut => exact h.unlockCut hφ hp
  | forgetApplied => exact h.forgetApplied hR hφ hp
  | forgetWritten => exact h.forgetWritten hR hφ hp
  | lockRegistry => exact h.lockRegistry hφ hp
  | getRegistry r => exact h.getRegistry hR hφ hp
  | replaceRegistry free r => exact h.replaceRegistry hR hφ free hp
  | countGone event => exact hquiet rfl hp
  | unlockRegistry knows => exact h.unlockRegistry hφ knows hp
  | giveUp => exact h.giveUp hφ hp

/-- A program that follows the protocol keeps the invariant. -/
theorem Together.keeps (hR : R.Sound) {α : Type} {t : Side} {p : Program α}
    {post : α → Place → Prop}
    {place : Place} (h : p.Follows (Leads s id t) post place) :
    p.Keeps R (Together s id) t (fun x ψ => ∃ place', ψ = t.view place' ∧ post x place')
      (t.view place) :=
  h.keeps fun _ _ _ _ _ _ _ hl hI hφ hp => Together.leads hR hl hI hφ hp

/-- How a deletion ends. -/
def Ended (y : Except PassError Unit) (φ : Phase) : Prop :=
  (y = .ok () ∧ φ = .gone .free) ∨ (∃ e, y = .error e) ∧ φ = .outside

/-- **A deletion keeps the invariant.** If it succeeds, it ends where nothing is left. -/
theorem keeps_delete (hR : R.Sound) :
    (delete s id).run.Keeps R (Together s id) .changes Ended .outside := by
  refine (Together.keeps hR follows_delete).mono ?_
  rintro y φ ⟨place, rfl, ⟨hy, rfl⟩ | ⟨hy, rfl⟩⟩
  · exact .inl ⟨hy, rfl⟩
  · exact .inr ⟨hy, rfl⟩

/-- **A pass keeps the invariant**, on either side. -/
theorem keeps_passing (hR : R.Sound) {α : Type} {t : Side} {p : Program α} {place : Place}
    (h : p.Follows (Leads s id t) (fun _ => Passed) place) :
    p.Keeps R (Together s id) t (fun _ φ => φ = .outside) (t.view place) := by
  refine (Together.keeps hR h).mono ?_
  rintro y φ ⟨place, rfl, rfl | rfl⟩ <;> cases t <;> rfl

end Pass

end MeshLimiter
