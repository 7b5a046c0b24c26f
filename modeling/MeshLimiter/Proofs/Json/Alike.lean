import Mathlib.Data.List.Nodup
import MeshLimiter.Proofs.Json.Form
/-!
# Documents that say the same

A member that is null or has the default of its field is as good as none. Documents that differ in
such members only, however deep these stand, have the same form, so they are read alike.

* **`Json.Ignores`**, **`Json.ignores_recordForm`**: a member that is as good as none, and when a
  record has one;
* **`Json.Alike`**, **`Json.Alike.form_eq`**: documents that differ in such members have the same
  form;
* **`Json.RoundTrip.read_eq_of_alike`**: they are read alike.
-/

namespace MeshLimiter.Json

/-- A member of a name with a value is as good as none, wherever it stands. -/
def Ignores (form : Json → Option Json) (name : String) (blank : Json) : Prop :=
  ∀ before after : List (String × Json), (∀ m ∈ before ++ after, m.1 ≠ name) →
    form (.obj (before ++ (name, blank) :: after)) = form (.obj (before ++ after))

/-- Documents that differ in members that are as good as none, at any depth: in the items of a list,
the values of a map and the fields of a record, each by its own form. -/
inductive Alike : (Json → Option Json) → Json → Json → Prop where
  | refl (form : Json → Option Json) (v : Json) : Alike form v v
  | symm {form v w} : Alike form v w → Alike form w v
  | trans {form u v w} : Alike form u v → Alike form v w → Alike form u w
  | blank {form name blank before after} : Ignores form name blank →
      (∀ m ∈ before ++ after, m.1 ≠ name) →
      Alike form (.obj (before ++ (name, blank) :: after)) (.obj (before ++ after))
  | item {form v w before after} : Alike form v w →
      Alike (listForm form) (.arr (before ++ v :: after)) (.arr (before ++ w :: after))
  | value {form key v w before after} : Alike form v w →
      Alike (mapForm form) (.obj (before ++ (key, v) :: after)) (.obj (before ++ (key, w) :: after))
  | member {forms form name v w before after} : (∀ f, (name, f) ∈ forms → f.Of form) →
      Alike form v w →
      Alike (recordForm forms) (.obj (before ++ (name, v) :: after))
        (.obj (before ++ (name, w) :: after))

variable {form : Json → Option Json} {forms : List (String × FieldForm)} {f : FieldForm}
  {name other : String}
  {v w blank : Json} {before after : List (String × Json)}

/-! ## Forms of records

The form of a record depends on its fields one by one. -/

/-- Records that have the same form of each field have the same form. -/
theorem recordForm_congr {members members' : List (String × Json)}
    (h : ∀ place, ∀ p ∈ forms, ((Fields.named members).given? place p.1).bind p.2
      = ((Fields.named members').given? place p.1).bind p.2) :
    recordForm forms (.obj members) = recordForm forms (.obj members') := by
  have hformed : ∀ place, (Fields.named members).formed place forms
      = (Fields.named members').formed place forms := by
    intro place
    induction forms generalizing place with
    | nil => rfl
    | cons p forms ih =>
      rw [Fields.formed, Fields.formed, h place p List.mem_cons_self,
        ih fun place q hq => h place q (List.mem_cons_of_mem p hq)]
  show ((Fields.named members).formed 0 forms).map _ =
      ((Fields.named members').formed 0 forms).map _
  rw [hformed 0]

/-- A member is not given for a field of another name. -/
theorem given?_other (hne : name ≠ other) (place : Nat) :
    (Fields.named (before ++ (name, v) :: after)).given? place other
      = (Fields.named (before ++ after)).given? place other := by
  have hskip : ((name, v) :: after).filter (fun m => m.1 == other) = after.filter fun m =>
      m.1 == other :=
    List.filter_cons_of_neg (by simpa using hne)
  simp only [Fields.given?, List.filter_append, hskip]

/-- **A member is as good as none if the field has the same form without it.** -/
theorem ignores_recordForm (hnames : (forms.map Prod.fst).Nodup) (hmem : (name, f) ∈ forms)
    (hblank : f (some blank) = f none) : Ignores (recordForm forms) name blank := by
  intro before after hother
  refine recordForm_congr fun place p hp => ?_
  by_cases hname : name = p.1
  · obtain rfl : (name, f) = p := List.inj_on_of_nodup_map hnames hmem hp hname
    have hnone : ∀ part : List (String × Json), (∀ m ∈ part, m.1 ≠ name) →
        part.filter (fun m => m.1 == name) = [] :=
      fun part hpart => List.filter_eq_nil_iff.2 fun m hm => by simpa using hpart m hm
    have hbefore := hnone before fun m hm => hother m (List.mem_append_left _ hm)
    have hafter := hnone after fun m hm => hother m (List.mem_append_right _ hm)
    simp only [Fields.given?, List.filter_append, hbefore, hafter, List.filter_cons_of_pos,
      beq_self_eq_true, List.nil_append, Option.bind_some, hblank]
  · rw [given?_other hname]

/-- A record has the same form with another value of a field, if the field has. -/
theorem recordForm_congr_at (h : ∀ f, (name, f) ∈ forms → f (some v) = f (some w)) :
    recordForm forms (.obj (before ++ (name, v) :: after))
      = recordForm forms (.obj (before ++ (name, w) :: after)) := by
  refine recordForm_congr fun place p hp => ?_
  by_cases hname : name = p.1
  · subst hname
    simp only [Fields.given?, List.filter_append, List.filter_cons_of_pos, beq_self_eq_true]
    -- the field is given once on both sides, or more than once on both
    cases before.filter fun m => m.1 == p.1 with
    | nil =>
      cases after.filter fun m => m.1 == p.1 with
      | nil => exact h p.2 hp
      | cons => rfl
    | cons m ms => cases ms <;> rfl
  · rw [given?_other hname, given?_other hname]

/-! ## The same form

What is the same but for how it is written has the same form. -/

/-- Values with the same form have it in a field as well, unless only one of them is null. -/
theorem FieldForm.Of.congr (h : f.Of form) (hform : form v = form w)
    (hnull : v = .null ↔ w = .null) : f (some v) = f (some w) := by
  cases h with
  | required =>
    show (form v).map some = (form w).map some
    rw [hform]
  | optional =>
    by_cases hv : v = .null
    · rw [hv, hnull.1 hv]
    · rw [FieldForm.optional, FieldForm.optional, hform]
      · exact fun hw => hv (hnull.2 hw)
      · exact hv
  | filled default =>
    show (form v).map some = (form w).map some
    rw [hform]
  | dropped default =>
    show (form v).map _ = (form w).map _
    rw [hform]

theorem mapM_congr_at {α β : Type} {f : α → Option β} {a b : α} (h : f a = f b)
    (before after : List α) : (before ++ a :: after).mapM f = (before ++ b :: after).mapM f := by
  simp only [List.mapM_append, List.mapM_cons, h]

/-- **Documents that differ in members that are as good as none have the same form.** -/
theorem Alike.form_eq (h : Alike form v w) : form v = form w ∧ (v = .null ↔ w = .null) := by
  induction h with
  | refl => exact ⟨rfl, Iff.rfl⟩
  | symm _ ih => exact ⟨ih.1.symm, ih.2.symm⟩
  | trans _ _ ih ih' => exact ⟨ih.1.trans ih'.1, ih.2.trans ih'.2⟩
  | blank h hother => exact ⟨h _ _ hother, by simp⟩
  | item _ ih => exact ⟨congrArg (Option.map Json.arr) (mapM_congr_at ih.1 _ _), by simp⟩
  | value _ ih =>
    refine ⟨congrArg (Option.bind · _) (mapM_congr_at ?_ _ _), by simp⟩
    exact congrArg (Option.map _) ih.1
  | member hforms _ ih =>
    exact ⟨recordForm_congr_at fun f hf => (hforms f hf).congr ih.1 ih.2, by simp⟩

/-- **Documents that differ in members that are as good as none are read alike.** -/
theorem RoundTrip.read_eq_of_alike {α : Type} {write : α → Json} {read : Json → Option α}
    (h : RoundTrip write read form) (halike : Alike form v w) : read v = read w :=
  h.read_eq_iff.2 halike.form_eq.1

end MeshLimiter.Json
