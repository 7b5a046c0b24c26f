import Mathlib.Data.List.Induction
import MeshLimiter.Json.Basic
/-!
# Reading members of JSON values

What stands under a name in an object, and under a path of names. Sorting the members of a value
leaves everything where it was.

* **`Json.field?`**, **`Json.at?`**: what stands under a name, and under a path;
* **`Json.at?_normal`**: the sorted form of a value has the sorted form of the same there.
-/

namespace MeshLimiter.Json

/-- The member of an object with a name, the last if there are several. -/
def field? (name : String) : Json → Option Json
  | .obj members => (lastByName members)[name]?
  | _ => none

/-- What stands under a path of names. -/
def at? (path : List String) (v : Json) : Option Json :=
  path.foldlM (fun v name => v.field? name) v

variable {name : String} {path : List String} {v : Json} {members : List (String × Json)}

@[simp] theorem at?_nil : v.at? [] = some v := rfl

@[simp] theorem at?_cons : v.at? (name :: path) = (v.field? name).bind (at? path) := rfl

theorem lastByName_concat (member : String × Json) :
    lastByName (members ++ [member]) = (lastByName members).insert member.1 member.2 := by
  rw [lastByName, List.foldl_append]
  rfl

/-- The last of each name, looked up from the end. -/
@[simp] theorem field?_obj :
    (obj members).field? name = (members.reverse.find? (·.1 == name)).map (·.2) := by
  show (lastByName members)[name]? = _
  induction members using List.reverseRecOn with
  | nil => simp [lastByName]
  | append_singleton members member ih =>
    rw [lastByName_concat, Std.ExtTreeMap.getElem?_insert, ih, List.reverse_concat, List.find?_cons]
    simp only [Std.LawfulEqCmp.compare_eq_iff_eq]
    by_cases h : member.1 = name
    · simp [h]
    · simp [h, beq_false_of_ne h]

theorem mapM_map {α β γ : Type} {f : α → γ} {g : γ → Option β} {h : α → β} (xs : List α)
    (hg : ∀ x, g (f x) = some (h x)) : (xs.map f).mapM g = some (xs.map h) := by
  induction xs with
  | nil => rfl
  | cons x xs ih => rw [List.map_cons, List.mapM_cons, hg, ih]; rfl

/-! ## Sorted members

To sort the members of an object and to keep the last of each name changes no field of it. -/

@[simp] theorem normalItems_eq_map (items : List Json) : normalItems items = items.map normal := by
  induction items with
  | nil => rfl
  | cons v items ih => rw [normalItems, ih, List.map_cons]

theorem normalMembers_eq_map (members : List (String × Json)) :
    normalMembers members = members.map fun (k, v) => (k, v.normal) := by
  induction members with
  | nil => rfl
  | cons member members ih => rw [normalMembers, ih, List.map_cons]

@[simp] theorem normal_arr (items : List Json) : (arr items).normal = .arr (items.map normal) := by
  rw [normal, normalItems_eq_map]

@[simp] theorem normal_str (s : String) : (str s).normal = .str s := by
  rw [normal]
  all_goals nofun

@[simp] theorem normal_num (n : Number) : (num n).normal = .num n := by
  rw [normal]
  all_goals nofun

theorem foldl_insert_eq_ofList {α : Type} (pairs : List (String × α)) :
    pairs.foldl (fun m p => m.insert p.1 p.2) (∅ : Std.ExtTreeMap String α) = .ofList pairs := by
  rw [← Std.ExtTreeMap.insertMany_list_eq_foldl, ← Std.ExtTreeMap.ofList_eq_insertMany_empty]

/-- A map is made again from its pairs. -/
theorem foldl_insert_toList {α : Type} (m : Std.ExtTreeMap String α) :
    m.toList.foldl (fun m (k, x) => m.insert k x) ∅ = m := by
  refine (foldl_insert_eq_ofList m.toList).trans ?_
  refine Std.ExtTreeMap.ext_getElem? fun k => ?_
  cases hk : m[k]? with
  | some x =>
    exact Std.ExtTreeMap.getElem?_ofList_of_mem Std.ReflCmp.compare_self
      Std.ExtTreeMap.distinct_keys_toList (Std.ExtTreeMap.mem_toList_iff_getElem?_eq_some.2 hk)
  | none =>
    refine Std.ExtTreeMap.getElem?_ofList_of_contains_eq_false (Bool.eq_false_iff.2 fun hin => ?_)
    rw [Std.ExtTreeMap.map_fst_toList_eq_keys, List.contains_iff_mem, Std.ExtTreeMap.mem_keys,
      Std.ExtTreeMap.mem_iff_isSome_getElem?, hk] at hin
    cases hin

/-- The members of a map are the last of their names. -/
theorem lastByName_toList (m : Std.ExtTreeMap String Json) : lastByName m.toList = m :=
  foldl_insert_toList m

theorem field?_normal : v.normal.field? name = (v.field? name).map normal := by
  cases v with
  | obj members =>
    have hsorted : (obj members).normal
        = .obj (lastByName (members.map fun (k, v) => (k, v.normal))).toList := by
      rw [normal, normalMembers_eq_map, ofMap]
      exact congrArg obj (List.map_id _)
    show _ = ((obj members).field? name).map normal
    rw [hsorted, field?, lastByName_toList]
    show (obj (members.map fun (k, v) => (k, v.normal))).field? name = _
    rw [field?_obj, field?_obj, ← List.map_reverse, List.find?_map, Option.map_map, Option.map_map]
    rfl
  | arr items =>
    rw [normal_arr]
    rfl
  | _ => simp [normal, field?]

theorem at?_normal : v.normal.at? path = (v.at? path).map normal := by
  induction path generalizing v with
  | nil => rfl
  | cons name path ih =>
    rw [at?_cons, at?_cons, field?_normal, Option.bind_map, Option.map_bind]
    exact congrArg _ (funext fun v => ih)

end MeshLimiter.Json
