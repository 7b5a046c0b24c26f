import MeshLimiter.Store
/-!
# What the store of materials holds

A limiter keeps the entry that was made for it, and what that entry holds is what was last put
there.

* **`MaterialStore.lookup?_entry`**: a new entry is empty, and one that is there stays as it is;
* **`MaterialStore.lookup?_put_entry`**: what is put into the entry of a limiter is found there;
* **`MaterialStore.Extends`**: entries are made but not unmade.
-/

namespace MeshLimiter

namespace Entry

@[simp] theorem material_update (e : Entry) (m : Material) : (e.update m).material = m := by
  unfold update
  split
  · next h => exact h
  · rfl

/-- The same material leaves the entry as it is. -/
theorem update_of_material_eq {e : Entry} {m : Material} (h : e.material = m) : e.update m = e :=
  if_pos h

/-- A material is replaced by the same one, or the revision has grown. -/
theorem update_cases (e : Entry) (m : Material) :
    e.update m = e ∨ e.revision < (e.update m).revision := by
  unfold update
  split
  · exact .inl rfl
  · exact .inr (Nat.lt_succ_self _)

end Entry

namespace MaterialStore

/-- The store with another content of an entry. -/
def put (s : MaterialStore) (e : EntryId) (new : Entry) : MaterialStore :=
  { s with entries := s.entries.set e.index new }

theorem put_get (s : MaterialStore) (e : EntryId) : s.put e (s.get e) = s := by
  have hset : s.entries.set e.index (s.entries.getD e.index {}) = s.entries := by
    -- an index beyond the end is read as an empty entry, and nothing is put there
    apply List.ext_getElem?
    intro i
    rw [List.getElem?_set, List.getD_eq_getElem?_getD]
    split
    · next h =>
      subst h
      split
      · next hlt => rw [List.getElem?_eq_getElem hlt]; rfl
      · next hlt => rw [List.getElem?_eq_none (by omega)]
    · rfl
  unfold put get
  rw [hset]

/-- What is put last is what is there. -/
theorem put_put (s : MaterialStore) (e : EntryId) (a b : Entry) :
    (s.put e a).put e b = s.put e b := by
  unfold put
  rw [List.set_set]

/-- What is put into an entry is found there, or the entry was never made and the store stays as it
is. -/
theorem get_put_cases (s : MaterialStore) (e : EntryId) (new : Entry) :
    (s.put e new).get e = new ∨ s.put e new = s := by
  by_cases hlt : e.index < s.entries.length
  · refine .inl ?_
    show (s.entries.set e.index new).getD e.index {} = new
    rw [List.getD_eq_getElem?_getD, List.getElem?_set_self hlt]
    rfl
  · refine .inr ?_
    unfold put
    rw [List.set_eq_of_length_le (by omega)]

/-- The entry of a limiter is one of those made. -/
def Owns (s : MaterialStore) (id : ResourceId) : Prop :=
  ∀ e, s.find? id = some e → e.index < s.entries.length

variable {s s' : MaterialStore} {id : ResourceId}

/-- A limiter has an entry once one was made for it. -/
theorem find?_entry (s : MaterialStore) (id : ResourceId) :
    (s.entry id).2.find? id = some (s.entry id).1 := by
  unfold entry
  cases h : s.find? id with
  | some e => exact h
  | none => exact Std.ExtTreeMap.getElem?_insert_self

/-- The entry of a limiter is found whatever is put there. -/
theorem find?_put_entry (s : MaterialStore) (id : ResourceId) (new : Entry) :
    ((s.entry id).2.put (s.entry id).1 new).find? id = some (s.entry id).1 :=
  find?_entry s id

/-- A limiter that has an entry keeps it. -/
theorem entry_put_entry (s : MaterialStore) (id : ResourceId) (new : Entry) :
    ((s.entry id).2.put (s.entry id).1 new).entry id
      = ((s.entry id).1, (s.entry id).2.put (s.entry id).1 new) := by
  rw [entry, find?_put_entry]

/-- A new entry is empty, and one that is there holds what it did. -/
theorem get_entry (s : MaterialStore) (id : ResourceId) :
    (s.entry id).2.get (s.entry id).1 = (s.lookup? id).getD {} := by
  unfold entry lookup?
  cases h : s.find? id with
  | some e => rfl
  | none => simp [get]

/-- So that is what is looked up. -/
theorem lookup?_entry (s : MaterialStore) (id : ResourceId) :
    (s.entry id).2.lookup? id = some ((s.lookup? id).getD {}) := by
  rw [lookup?, find?_entry, Option.map_some, get_entry]

/-- What becomes of a store: no entry is unmade, and a limiter that gets another one gets one that
was made. -/
structure Extends (s s' : MaterialStore) : Prop where
  made : s.entries.length ≤ s'.entries.length
  found : ∀ id e, s'.find? id = some e → s.find? id = some e ∨ e.index < s'.entries.length

/-- No entry is unmade by nothing. -/
theorem Extends.refl (s : MaterialStore) : s.Extends s :=
  ⟨Nat.le_refl _, fun _ _ => .inl⟩

/-- An entry that was made is still one of them. -/
theorem Extends.owns (h : s.Extends s') (howns : s.Owns id) : s'.Owns id := fun e he =>
  (h.found id e he).elim (fun hfound => Nat.lt_of_lt_of_le (howns e hfound) h.made) fun hlt => hlt

/-- To make an entry unmakes none. -/
theorem extends_entry (s : MaterialStore) (id : ResourceId) : s.Extends (s.entry id).2 := by
  unfold entry
  cases s.find? id with
  | some e => exact .refl s
  | none =>
    refine ⟨by simp, fun id' e he => ?_⟩
    by_cases hid : id' = id
    · subst hid
      have hnew : (s.current.insert id' ⟨s.entries.length⟩)[id']? = some e := he
      rw [Std.ExtTreeMap.getElem?_insert_self] at hnew
      obtain rfl := Option.some.inj hnew
      exact .inr (by simp)
    · have hold : (s.current.insert id ⟨s.entries.length⟩)[id']? = some e := he
      rw [Std.ExtTreeMap.getElem?_insert, if_neg fun heq =>
        hid (Std.LawfulEqOrd.eq_of_compare heq).symm] at hold
      exact .inl hold

/-- A limiter may lose its entry, which stays made. -/
theorem extends_remove (s : MaterialStore) (id : ResourceId) : s.Extends (s.remove id).2 := by
  refine ⟨Nat.le_refl _, fun id' e he => .inl ?_⟩
  have herase : (s.current.erase id)[id']? = some e := he
  rw [Std.ExtTreeMap.getElem?_erase] at herase
  split at herase
  · cases herase
  · exact herase

theorem extends_put (s : MaterialStore) (e : EntryId) (new : Entry) : s.Extends (s.put e new) :=
  ⟨Nat.le_of_eq (List.length_set ..).symm, fun _ _ => .inl⟩

theorem Owns.entry (h : s.Owns id) : (s.entry id).2.Owns id :=
  (extends_entry s id).owns h

theorem Owns.put (h : s.Owns id) (e : EntryId) (new : Entry) : (s.put e new).Owns id :=
  (extends_put s e new).owns h

/-- What is put into the entry of a limiter is looked up there. -/
theorem lookup?_put_entry (h : s.Owns id) (new : Entry) :
    ((s.entry id).2.put (s.entry id).1 new).lookup? id = some new := by
  have hlt : (s.entry id).1.index < (s.entry id).2.entries.length :=
    h.entry _ (find?_entry s id)
  rw [lookup?, find?_put_entry]
  show some (((s.entry id).2.entries.set (s.entry id).1.index new).getD _ {}) = some new
  rw [List.getD_eq_getElem?_getD, List.getElem?_set_self hlt]
  rfl

end MaterialStore

end MeshLimiter
