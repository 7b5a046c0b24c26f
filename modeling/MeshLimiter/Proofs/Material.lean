import MeshLimiter.Material
import Mathlib.Data.List.Induction
/-!
# What a material holds

Values and marks of groups are kept apart, and each change of a material touches both. Whatever
changes there were, under each key there is what was written there last, with a mark if that was
written as a group, and no mark stands without a value.

* **`Material.slot`**, **`Material.eq_of_slot_eq`**: what stands under a key, and that it is all
  there is;
* **`Material.slot_extend`**: what is written over another material decides where it holds
  something;
* **`Material.slot_change`**, **`Material.slot_changeAll`**: so the last write decides, after one
  change and after many;
* **`Material.last_write_decides`**: what a material holds, and the laws of `extend`.
-/

namespace MeshLimiter.Material

/-- What stands under a key: its value, and whether it is marked as a group. -/
def slot (m : Material) (key : String) : Option String × Bool :=
  (m.values[key]?, m.groups.contains key)

/-- Materials with the same under each key are the same. -/
theorem eq_of_slot_eq {m m' : Material} (h : ∀ key, m.slot key = m'.slot key) : m = m' := by
  have hvalues : m.values = m'.values :=
    Std.ExtTreeMap.ext_getElem? fun key => congrArg Prod.fst (h key)
  have hgroups : m.groups = m'.groups :=
    Std.ExtTreeSet.ext_contains fun key => congrArg Prod.snd (h key)
  cases m
  cases m'
  cases hvalues
  cases hgroups
  rfl

theorem slot_insert (m : Material) (k v key : String) :
    (m.insert k v).slot key = if k = key then (some v, false) else m.slot key := by
  unfold slot insert
  by_cases h : k = key
  · simp [h]
  · have h' : ¬ compare k key = .eq := by simpa using h
    simp [Std.ExtTreeMap.getElem?_insert, Std.ExtTreeSet.contains_erase, h, h']

theorem slot_insertGroup (m : Material) (k v key : String) :
    (m.insertGroup k v).slot key = if k = key then (some v, true) else m.slot key := by
  unfold slot insertGroup
  by_cases h : k = key
  · simp [h]
  · have h' : ¬ compare k key = .eq := by simpa using h
    simp [Std.ExtTreeMap.getElem?_insert, Std.ExtTreeSet.contains_insert, h, h']

/-- A write is seen under its key, and nowhere else. -/
theorem slot_put (m : Material) (group : Bool) (k v key : String) :
    (m.put group k v).slot key = if k = key then (some v, group) else m.slot key := by
  unfold put
  cases group with
  | false => exact slot_insert m k v key
  | true => exact slot_insertGroup m k v key

/-! ## The entries of another material

They are written in some order, each under another key. So the order does not matter. -/

section Putting

variable (keep mark : String → Bool) (m : Material) {key v : String}

/-- Entries under other keys, and those that are not to be kept, leave a key alone. -/
theorem slot_foldl_put_of_not_mem (entries : List (String × String))
    (h : keep key = false ∨ ∀ e ∈ entries, e.1 ≠ key) :
    (entries.foldl (fun (acc : Material) e => if keep e.1 then acc.put (mark e.1) e.1 e.2
      else acc) m).slot key = m.slot key := by
  induction entries generalizing m with
  | nil => rfl
  | cons e entries ih =>
    rw [List.foldl_cons, ih _ (h.imp_right fun h e he => h e (List.mem_cons_of_mem _ he))]
    split
    · -- an entry that is kept has another key
      next hkeep =>
      rw [slot_put, if_neg]
      rintro rfl
      rcases h with h | h
      · rw [h] at hkeep
        cases hkeep
      · exact h e List.mem_cons_self rfl
    · rfl

/-- The one entry under a key that is to be kept stands there in the end. -/
theorem slot_foldl_put_of_mem {entries : List (String × String)} (hkeep : keep key = true)
    (hmem : (key, v) ∈ entries) (hkeys : (entries.map Prod.fst).Nodup) :
    (entries.foldl (fun (acc : Material) e => if keep e.1 then acc.put (mark e.1) e.1 e.2
      else acc) m).slot key = (some v, mark key) := by
  induction entries generalizing m with
  | nil => cases hmem
  | cons e entries ih =>
    rw [List.foldl_cons]
    obtain ⟨hfresh, hkeys⟩ := List.nodup_cons.1 hkeys
    rcases List.mem_cons.1 hmem with rfl | hmem
    · -- no later entry has the key, so it keeps what is written here
      rw [slot_foldl_put_of_not_mem, if_pos hkeep, slot_put, if_pos rfl]
      exact .inr fun e he heq => hfresh (List.mem_map.2 ⟨e, he, heq⟩)
    · exact ih _ hmem hkeys

/-- What stands under a key once the entries of a material that are to be kept are put over those of
another. -/
theorem slot_foldl_values (other : Material) (key : String) :
    (other.values.toList.foldl (fun (acc : Material) e =>
        if keep e.1 then acc.put (other.isGroup e.1) e.1 e.2 else acc) m).slot key
      = if keep key ∧ other.values[key]?.isSome then other.slot key else m.slot key := by
  split
  · -- the key is written once
    next h =>
    obtain ⟨v, hv⟩ := Option.isSome_iff_exists.1 h.2
    have hkeys : (other.values.toList.map Prod.fst).Nodup := by
      rw [Std.ExtTreeMap.map_fst_toList_eq_keys]
      exact Std.ExtTreeMap.nodup_keys
    rw [slot_foldl_put_of_mem keep other.isGroup m h.1
      (Std.ExtTreeMap.mem_toList_iff_getElem?_eq_some.2 hv) hkeys]
    exact Prod.ext hv.symm rfl
  · -- it is not written
    next h =>
    refine slot_foldl_put_of_not_mem keep other.isGroup m _ ?_
    cases hkeep : keep key with
    | false => exact .inl rfl
    | true =>
      refine .inr fun e he heq => h ⟨hkeep, ?_⟩
      rw [← heq, Std.ExtTreeMap.mem_toList_iff_getElem?_eq_some.1 he]
      rfl

end Putting

/-- What stands under a key once the entries of a material are written over those of another. -/
theorem slot_extend (m other : Material) (key : String) :
    (m.extend other).slot key = if other.values[key]?.isSome then other.slot key
    else m.slot key := by
  unfold extend
  rw [Std.ExtTreeMap.foldl_eq_foldl_toList]
  refine (slot_foldl_values (fun _ => true) m other key).trans ?_
  simp only [true_and]

/-! ## Changes, one after another

Under each key the last change that writes there decides. -/

/-- A change of a material. -/
inductive Change where
  | insert (key value : String)
  | insertGroup (key value : String)
  | extend (other : Material)

/-- The material after a change. -/
def change (m : Material) : Change → Material
  | .insert k v => m.insert k v
  | .insertGroup k v => m.insertGroup k v
  | .extend other => m.extend other

def changeAll (m : Material) (changes : List Change) : Material :=
  changes.foldl change m

/-- What a change writes under a key: a value, and whether as a group. -/
def Change.write? (key : String) : Change → Option (String × Bool)
  | insert k v => if k = key then some (v, false) else none
  | insertGroup k v => if k = key then some (v, true) else none
  | extend other => (other.get? key).map fun v => (v, other.isGroup key)

/-- What changes have written under a key last. -/
def lastWrite? (key : String) (changes : List Change) : Option (String × Bool) :=
  (changes.filterMap (Change.write? key)).getLast?

/-- What stands under a key after a write, or stays there without one. -/
def written (before : Option String × Bool) : Option (String × Bool) → Option String × Bool
  | none => before
  | some (v, group) => (some v, group)

variable {m : Material} {changes : List Change} {key : String}

/-- The last change comes first. -/
theorem lastWrite?_concat (c : Change) :
    lastWrite? key (changes ++ [c]) = (c.write? key).or (lastWrite? key changes) := by
  rw [lastWrite?, List.filterMap_append, List.getLast?_append]
  cases h : c.write? key <;> simp [h, lastWrite?]

theorem slot_change (m : Material) (c : Change) (key : String) :
    (m.change c).slot key = written (m.slot key) (c.write? key) := by
  cases c with
  | insert k v =>
    rw [change, slot_insert, Change.write?]
    split <;> rfl
  | insertGroup k v =>
    rw [change, slot_insertGroup, Change.write?]
    split <;> rfl
  | extend other =>
    rw [change, slot_extend, Change.write?, get?]
    cases hv : other.values[key]? with
    | none => rfl
    | some v => exact Prod.ext hv rfl

/-- **The last write decides** what stands under a key. -/
theorem slot_changeAll (m : Material) (changes : List Change) (key : String) :
    (m.changeAll changes).slot key = written (m.slot key) (lastWrite? key changes) := by
  induction changes using List.reverseRecOn with
  | nil => rfl
  | append_singleton changes c ih =>
    have hlater : m.changeAll (changes ++ [c]) = (m.changeAll changes).change c := List.foldl_append
    rw [hlater, slot_change, ih, lastWrite?_concat]
    cases c.write? key <;> rfl

/-! ## Materials that are made from nothing

What they hold is what was written last, and nothing else. -/

theorem slot_changeAll_empty (changes : List Change) (key : String) :
    (empty.changeAll changes).slot key = written (none, false) (lastWrite? key changes) := by
  rw [slot_changeAll]
  simp [slot, empty]

theorem get?_changeAll_empty (changes : List Change) (key : String) :
    (empty.changeAll changes).get? key = (lastWrite? key changes).map Prod.fst := by
  have hvalue := congrArg Prod.fst (slot_changeAll_empty changes key)
  refine Eq.trans hvalue ?_
  cases lastWrite? key changes <;> rfl

theorem isGroup_changeAll_empty (changes : List Change) (key : String) :
    (empty.changeAll changes).isGroup key = true ↔
    ∃ v, lastWrite? key changes = some (v, true) := by
  have hmark : (empty.changeAll changes).isGroup key
      = (written (none, false) (lastWrite? key changes)).2 :=
    congrArg Prod.snd (slot_changeAll_empty changes key)
  rw [hmark]
  rcases lastWrite? key changes with _ | ⟨v, _ | _⟩ <;> simp [written]

/-- All groups have a value. -/
theorem groups_subset_keys (changes : List Change) :
    (empty.changeAll changes).groups.toList ⊆ (empty.changeAll changes).values.keys := by
  intro key hkey
  have hgroup : (empty.changeAll changes).isGroup key = true :=
    Std.ExtTreeSet.contains_iff_mem.2 (Std.ExtTreeSet.mem_toList.1 hkey)
  obtain ⟨v, hlast⟩ := (isGroup_changeAll_empty changes key).1 hgroup
  have hvalue : (empty.changeAll changes).values[key]? = some v := by
    have hget := get?_changeAll_empty changes key
    rw [hlast] at hget
    exact hget
  exact Std.ExtTreeMap.mem_keys.2 (Std.ExtTreeMap.mem_iff_isSome_getElem?.2 (by rw [hvalue]; rfl))

/-- Only what was written last tells such materials apart. -/
theorem changeAll_empty_eq_iff {changes' : List Change} :
    empty.changeAll changes' = empty.changeAll changes ↔
      ∀ key, lastWrite? key changes' = lastWrite? key changes := by
  have hinj : ∀ w w' : Option (String × Bool), written (none, false) w = written (none, false) w' →
      w = w' := by
    intro w w' h
    cases w <;> cases w' <;> simp_all [written, Prod.ext_iff]
  constructor
  · intro h key
    refine hinj _ _ ?_
    rw [← slot_changeAll_empty, ← slot_changeAll_empty, h]
  · intro h
    refine eq_of_slot_eq fun key => ?_
    rw [slot_changeAll_empty, slot_changeAll_empty, h]

/-! ## Writing materials over one another

What holds under each key holds of the whole: to write over is associative, and nothing changes when
it is done again. -/

/-- **Writing a material over another comes to making its changes anew.** -/
theorem extend_changeAll (m : Material) (changes : List Change) :
    m.extend (empty.changeAll changes) = m.changeAll changes := by
  refine eq_of_slot_eq fun key => ?_
  have hvalue : (empty.changeAll changes).values[key]? = (lastWrite? key changes).map Prod.fst :=
    get?_changeAll_empty changes key
  rw [slot_extend, slot_changeAll m, hvalue, slot_changeAll_empty]
  cases lastWrite? key changes <;> rfl

/-- Which of three materials a key is taken from does not depend on which two are put together
first. -/
theorem extend_assoc (a b c : Material) : (a.extend b).extend c = a.extend (b.extend c) := by
  refine eq_of_slot_eq fun key => ?_
  have hvalue : (b.extend c).values[key]?
      = (if c.values[key]?.isSome then c.slot key else b.slot key).1 := by
    rw [← slot_extend]
    rfl
  rw [slot_extend, slot_extend, slot_extend, slot_extend, hvalue]
  cases hc : c.values[key]? with
  | some v =>
    have hslot : (c.slot key).1 = some v := hc
    simp [hslot]
  | none => simp [slot]

theorem extend_extend_self (a m : Material) : (a.extend m).extend m = a.extend m := by
  refine eq_of_slot_eq fun key => ?_
  rw [slot_extend, slot_extend]
  split <;> rfl

/-- **A material is what was written last, key by key.** Let any changes be made to an empty
material. Then all groups have a value; under each key there is the value that was written there
last, and the key is a group exactly if it was written as one then, by itself or with a material in
which it is a group; and only what was written last tells two such materials apart. Written over
another material it comes to the same changes made there; and writing materials over one another is
associative, has the empty material on either side as identity, and changes nothing the second
time. -/
theorem last_write_decides (changes : List Change) :
    let m := empty.changeAll changes
    m.groups.toList ⊆ m.values.keys ∧
    (∀ key, m.get? key = (lastWrite? key changes).map Prod.fst ∧
      (m.isGroup key = true ↔ ∃ v, lastWrite? key changes = some (v, true))) ∧
    (∀ changes', empty.changeAll changes' = m ↔
      ∀ key, lastWrite? key changes' = lastWrite? key changes) ∧
    (∀ a : Material, a.extend m = a.changeAll changes) ∧
    (∀ a b c : Material, (a.extend b).extend c = a.extend (b.extend c)) ∧
    empty.extend m = m ∧ m.extend empty = m ∧
    ∀ a : Material, (a.extend m).extend m = a.extend m := by
  intro m
  exact ⟨groups_subset_keys changes,
    fun key => ⟨get?_changeAll_empty changes key, isGroup_changeAll_empty changes key⟩,
    fun _ => changeAll_empty_eq_iff,
    fun a => extend_changeAll a changes,
    extend_assoc, extend_changeAll empty changes, extend_changeAll m [], fun a =>
    extend_extend_self a m⟩

/-- A mark goes when a value is written over it with another material, and stays where that holds
nothing. -/
example :
    let m :=
      empty.changeAll [.insertGroup "cpu" "{}", .insertGroup "rps" "{}",
        .extend (empty.insert "cpu" "7")]
    m.isGroup "cpu" = false ∧ m.get? "cpu" = some "7" ∧ m.isGroup "rps" = true := by
  decide

end MeshLimiter.Material
