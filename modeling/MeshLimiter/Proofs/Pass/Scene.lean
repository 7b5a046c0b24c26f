import MeshLimiter.Proofs.Pass.Commands
import MeshLimiter.Proofs.Pass.Phases
/-!
# What steps change of a scene

A scene is what is held about one limiter. Few steps of a pass change whether the limiter is of
interest or which entry it has.

* **`World.Answers.scene_makeEntry`**, **`World.Answers.scene_removeEntry`**: its entry comes and
  goes;
* **`World.Answers.scene_addInterest`**, **`World.Answers.scene_dropInterest`**: so does the
  interest in it;
* **`World.Answers.scene_of_works`**: a pass that works changes neither;
* **`World.Answers.extends_store`**: no step unmakes an entry.
-/

namespace MeshLimiter.World.Answers

variable {w w' : World} {s : Settings} {id : ResourceId}

/-- The limiter gets an entry, or has it already. -/
theorem scene_makeEntry (s : Settings) {e : EntryId} (h : w.Answers (.makeEntry id) e w') :
    ((w.held.scene s id).current = none ∨ (w.held.scene s id).current = some e) ∧
      w'.held.scene s id = { w.held.scene s id with current := some e } := by
  obtain ⟨he, hheld⟩ := h.makeEntry
  constructor
  · -- an entry that is there is taken again
    show w.held.store.find? id = none ∨ w.held.store.find? id = some e
    rw [he]
    unfold MaterialStore.entry
    cases w.held.store.find? id with
    | none => exact .inl rfl
    | some e' => exact .inr rfl
  · have hfind : (w.held.store.entry id).2.find? id = some e := by
      rw [he]
      exact MaterialStore.find?_entry ..
    rw [hheld]
    show (⟨_, (w.held.store.entry id).2.find? id, _, _, _⟩ : Scene) = _
    rw [hfind]
    rfl

/-- It loses its entry. -/
theorem scene_removeEntry {r : Unit} (h : w.Answers (.removeEntry id) r w') :
    w'.held.scene s id = { w.held.scene s id with current := none } := by
  have hfind : (w.held.store.remove id).2.find? id = none := Std.ExtTreeMap.getElem?_erase_self
  rw [h.removeEntry]
  show (⟨_, (w.held.store.remove id).2.find? id, _, _, _⟩ : Scene) = _
  rw [hfind]
  rfl

/-- It comes to be of interest. -/
theorem scene_addInterest {r : Unit} (h : w.Answers (.addInterest id) r w') :
    w'.held.scene s id = { w.held.scene s id with wanted := true } := by
  have hwanted : (w.held.interest.insert id).contains id = true :=
    Std.ExtTreeSet.contains_insert_self
  rw [h.addInterest]
  show (⟨(w.held.interest.insert id).contains id, _, _, _, _⟩ : Scene) = _
  rw [hwanted]
  rfl

/-- It is of interest no more. -/
theorem scene_dropInterest {r : Unit} (h : w.Answers (.dropInterest id) r w') :
    w'.held.scene s id = { w.held.scene s id with wanted := false } := by
  have hwanted : (w.held.interest.erase id).contains id = false := by
    rw [Std.ExtTreeSet.contains_erase]
    simp
  rw [h.dropInterest]
  show (⟨(w.held.interest.erase id).contains id, _, _, _, _⟩ : Scene) = _
  rw [hwanted]
  rfl

/-- A call changes neither the entry of a limiter nor whether it is of interest. -/
theorem scene_call (s : Settings) (id : ResourceId) {c : ClusterCall} {r : c.Reply}
    (h : w.Answers (.call c) r w') :
    w'.held.scene s id = { w.held.scene s id with registry := (w'.held.scene s id).registry } := by
  rcases h.call with ⟨-, hheld⟩ | ⟨version, hheld⟩
  · rw [hheld]
  · rw [hheld]
    cases c <;> rfl

/-- A look at the entry gives the one that the limiter has, before and after it. -/
theorem current_of_findEntry {current : Option EntryId} (h : w.Answers (.findEntry id) current w') :
    (w'.held.scene s id).current = current := by
  rw [h.held_of_isQuiet rfl]
  exact h.findEntry.symm

/-- It is answered whether it is of interest. -/
theorem wanted_of_isInterested {wanted : Bool} (h : w.Answers (.isInterested id) wanted w') :
    (w'.held.scene s id).wanted = wanted := by
  rw [h.held_of_isQuiet rfl]
  exact h.isInterested.symm

theorem scene_of_works (s : Settings) (id : ResourceId) {a : Step} {r : a.Reply}
    (ha : Pass.Works (.step a)) (h : w.Answers a r w') :
    (w'.held.scene s id).wanted = (w.held.scene s id).wanted ∧
      (w'.held.scene s id).current = (w.held.scene s id).current := by
  cases a with
  | call c => rw [h.scene_call s id]; exact ⟨rfl, rfl⟩
  | updateEntry e m => rw [h.updateEntry.2]; exact ⟨rfl, rfl⟩
  | setApplied id' x => rw [h.setApplied]; exact ⟨rfl, rfl⟩
  | setWritten id' x => rw [h.setWritten]; exact ⟨rfl, rfl⟩
  | count | subsetsOf | sendQueries | receiveAnswers | readEntry | findWritten =>
    rw [h.held_of_isQuiet rfl]; exact ⟨rfl, rfl⟩
  | _ => cases ha

/-- Whatever step is taken, no entry is unmade. -/
theorem extends_store {a : Step} {r : a.Reply} (h : w.Answers a r w') :
    w.held.store.Extends w'.held.store := by
  have hsame : w'.held.store = w.held.store → w.held.store.Extends w'.held.store := by
    intro heq
    rw [heq]
    exact .refl _
  cases a with
  | makeEntry id =>
    rw [h.makeEntry.2]
    exact MaterialStore.extends_entry ..
  | removeEntry id =>
    rw [h.removeEntry]
    exact MaterialStore.extends_remove ..
  | updateEntry e m =>
    rw [h.updateEntry.2]
    exact MaterialStore.extends_put ..
  | call c =>
    -- calls do not touch the store
    rcases h.call with ⟨-, hheld⟩ | ⟨version, hheld⟩
    · exact hsame (congrArg Held.store hheld)
    · refine hsame ?_
      rw [hheld]
      cases c <;> rfl
  | addInterest id => exact hsame (by rw [h.addInterest])
  | dropInterest id => exact hsame (by rw [h.dropInterest])
  | setApplied id x => exact hsame (by rw [h.setApplied])
  | setWritten id x => exact hsame (by rw [h.setWritten])
  | sendQueries texts => exact hsame (congrArg Held.store (h.held_of_isQuiet rfl))
  | tryPop queue | push queue id | finish queue id =>
    cases h with
    | performed held => cases queue <;> exact hsame (congrArg Held.store held)
  | _ =>
    cases h with
    | performed held => exact hsame (congrArg Held.store held)

end MeshLimiter.World.Answers
