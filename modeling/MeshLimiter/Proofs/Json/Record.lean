import MeshLimiter.Json.Record
import MeshLimiter.Proofs.Json.Reading
import MeshLimiter.Proofs.Json.Writer
/-!
# Records read back

A record is written with some of its fields left out. As long as the fields have names of their own,
each is found where it stands and reads as what it was, an absent one as its default.

* **`Json.given?_membersOf`**: what is found of a field is what was written of it;
* **`Json.whole_membersOf`**: a record of values without fractions is one.
-/

namespace MeshLimiter

namespace Json

/-! ## Fields left out

The fields that are there have different names, so each is found under its own. -/

/-- The members written of fields, of which some are absent. -/
def membersOf (fields : List (String × Option Json)) : List (String × Json) :=
  fields.flatMap fun f => member? f.1 f.2

theorem flag?_eq (name : String) (b : Bool) :
    flag? name b = member? name (if b then some (.bool true) else none) := by
  cases b <;> rfl

theorem filter_member? (key name : String) (v : Option Json) :
    ((member? key v).filter fun m => m.1 == name) = if key = name then member? key v else [] := by
  cases v <;> by_cases h : key = name <;> simp [member?, h]

variable {fields : List (String × Option Json)} {name : String} {v : Option Json} {place : Nat}

theorem filter_membersOf_eq_nil (hnot : name ∉ fields.map Prod.fst) :
    ((membersOf fields).filter fun m => m.1 == name) = [] := by
  induction fields with
  | nil => rfl
  | cons f fields ih =>
    rw [List.map_cons, List.mem_cons, not_or] at hnot
    rw [membersOf, List.flatMap_cons, List.filter_append, filter_member?, if_neg (Ne.symm hnot.1)]
    exact ih hnot.2

theorem filter_membersOf (hnames : (fields.map Prod.fst).Nodup) (hmem : (name, v) ∈ fields) :
    ((membersOf fields).filter fun m => m.1 == name) = member? name v := by
  induction fields with
  | nil => cases hmem
  | cons f fields ih =>
    obtain ⟨hnot, hnames⟩ := List.nodup_cons.1 hnames
    rw [membersOf, List.flatMap_cons, List.filter_append, filter_member?]
    rcases List.mem_cons.1 hmem with rfl | hmem
    · rw [if_pos rfl, ← membersOf, filter_membersOf_eq_nil hnot, List.append_nil]
    · have hother : f.1 ≠ name := fun h => hnot (h ▸ List.mem_map_of_mem hmem)
      rw [if_neg hother]
      exact ih hnames hmem

theorem given?_membersOf (hnames : (fields.map Prod.fst).Nodup) (hmem : (name, v) ∈ fields) :
    (Fields.named (membersOf fields)).given? place name = some v := by
  have hfilter := filter_membersOf hnames hmem
  unfold Fields.given?
  cases v with
  | none => simp only [hfilter, member?]
  | some w => simp only [hfilter, member?]

/-! ## Values of fields

What is read back of one value is read back of a list, of a map, and of an optional one. -/

variable {α : Type} {read : Json → Option α}

theorem listOf?_map {write : α → Json} {xs : List α} (hread : ∀ a, read (write a) = some a) :
    (Json.arr (xs.map write)).listOf? read = some xs := by
  have hall : (xs.map write).mapM read = some (xs.map id) := mapM_map xs hread
  rwa [List.map_id] at hall

theorem whole_of_map {x : Option α} {write : α → Json} {w : Json} (h : x.map write = some w)
    (hwhole : ∀ a, (write a).Whole) : w.Whole := by
  obtain ⟨a, -, rfl⟩ := Option.map_eq_some_iff.1 h
  exact hwhole a

theorem whole_of_flag {b : Bool} {w : Json} (h : (if b then some (.bool true) else none) = some w) :
    w.Whole := by
  rw [Option.ite_none_right_eq_some, Option.some.injEq] at h
  exact h.2 ▸ .bool true

theorem whole_membersOf (hwhole : ∀ f ∈ fields, ∀ w, f.2 = some w → w.Whole) :
    (Json.obj (membersOf fields)).Whole := by
  refine .obj fun m hm => ?_
  obtain ⟨⟨name, v⟩, hf, hm⟩ := List.mem_flatMap.1 hm
  cases v with
  | none => cases hm
  | some w =>
    obtain rfl := List.mem_singleton.1 hm
    exact hwhole _ hf w rfl

end Json

end MeshLimiter
