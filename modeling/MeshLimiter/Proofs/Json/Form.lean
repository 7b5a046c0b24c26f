import MeshLimiter.Proofs.Json.Record
/-!
# The form of a document

Documents that say the same may be written differently: an optional field may be null or absent, a
list may be empty or absent, and the members of a record may stand in any order. When a document is
read and written again, such differences are gone. What is left is its form, which is found from the
document alone; a document without a form cannot be read.

* **`Json.RoundTrip`**: reading undoes writing, and what is read is written in its form;
* **`Json.RoundTrip.read_eq_iff`**: documents are read alike exactly if they have the same form;
* **`Json.FieldForm`**, **`Json.recordForm`**: the form of a field, and of a record by those of its
  fields;
* **`Json.RoundTrip.record`**: a record makes the round trip if its fields do.
-/

namespace MeshLimiter.Json

/-- Reading undoes writing, and whatever is read is written in the form of what it was read from. -/
structure RoundTrip {J α : Type} (write : α → J) (read : J → Option α) (form : J → Option J) :
    Prop where
  read_write : ∀ x, read (write x) = some x
  map_write : ∀ v, (read v).map write = form v

namespace RoundTrip

variable {J α : Type} {write : α → J} {read : J → Option α} {form : J → Option J}
  {v w : J} {x y : α}

/-- What is written alike is alike. -/
theorem write_inj (h : RoundTrip write read form) (heq : write x = write y) : x = y := by
  have hread := h.read_write x
  rw [heq, h.read_write] at hread
  exact (Option.some.inj hread).symm

/-- Whatever is made of what is written can be made of the form. -/
theorem map_comp {β : Type} (h : RoundTrip write read form) (g : J → β) (v : J) :
    (read v).map (fun x => g (write x)) = (form v).map g := by
  rw [← h.map_write, Option.map_map]
  rfl

/-- What is read is the same exactly if the form is. -/
theorem read_eq_iff (h : RoundTrip write read form) : read v = read w ↔ form v = form w := by
  rw [← h.map_write, ← h.map_write]
  exact (Option.map_injective fun _ _ => h.write_inj).eq_iff.symm

end RoundTrip

/-! ## Simple values

Texts, truth values, numbers and names, and lists and maps of what has a form. -/

/-- A value that is kept as it is. -/
theorem roundTrip_any : RoundTrip id some (some : Json → Option Json) where
  read_write _ := rfl
  map_write _ := rfl

/-- The form of a text. -/
def textForm : Json → Option Json
  | .str s => some (.str s)
  | _ => none

theorem roundTrip_text : RoundTrip Json.str text? textForm where
  read_write _ := rfl
  map_write v := by cases v <;> rfl

/-- The form of a truth value. -/
def boolForm : Json → Option Json
  | .bool b => some (.bool b)
  | _ => none

theorem roundTrip_bool : RoundTrip Json.bool bool? boolForm where
  read_write _ := rfl
  map_write v := by cases v <;> rfl

/-- The form of a whole number between two bounds. -/
def intForm (lo hi : Int) : Json → Option Json
  | .num (.int i) => if lo ≤ i ∧ i ≤ hi then some (.ofInt i) else none
  | _ => none

/-- Numbers that a type has between two bounds. -/
theorem roundTrip_int {α : Type} {lo hi : Int} (toInt : α → Int) (ofInt' : Int → α)
    (hbounds : ∀ x, lo ≤ toInt x ∧ toInt x ≤ hi) (hof : ∀ x, ofInt' (toInt x) = x)
    (hto : ∀ i, lo ≤ i → i ≤ hi → toInt (ofInt' i) = i) :
    RoundTrip (fun x => Json.ofInt (toInt x)) (fun v : Json => (v.intIn? lo hi).map ofInt')
      (intForm lo hi) where
  read_write x := by
    have hin : (Json.ofInt (toInt x)).intIn? lo hi = some (toInt x) := by
      show (some (toInt x)).filter (fun i => lo ≤ i && i ≤ hi) = some (toInt x)
      simp [Option.filter_some, hbounds x]
    rw [hin, Option.map_some, hof]
  map_write v := by
    match v with
    | .num (.int i) =>
      show (((some i).filter fun i => lo ≤ i && i ≤ hi).map ofInt').map _ = intForm lo hi
          (.num (.int i))
      rw [Option.filter_some, intForm]
      by_cases hin : lo ≤ i ∧ i ≤ hi
      · simp [hin, hto i hin.1 hin.2]
      · simp [hin]
    | .num (.real _) | .null | .bool _ | .str _ | .arr _ | .obj _ => rfl

/-- The form of one of some names, which may stand in an object of its own. -/
def nameForm (names : List String) (v : Json) : Option Json :=
  (v.name?.filter (· ∈ names)).map .str

/-- A name is read with or without an object around it. -/
theorem roundTrip_name {α : Type} {name : α → String} {names : List String} {read : Json → Option α}
    (hread : ∀ x, read (.str (name x)) = some x)
    (hnames : ∀ v, (read v).map name = v.name?.filter (· ∈ names)) :
    RoundTrip (fun x => .str (name x)) read (nameForm names) where
  read_write := hread
  map_write v := by
    rw [nameForm, ← hnames, Option.map_map]
    rfl

section Collections

variable {α : Type} {write : α → Json} {read : Json → Option α} {form : Json → Option Json}

/-- Items with a form each are items with forms. -/
theorem map_mapM {β γ δ : Type} {f : β → Option γ} {g : β → Option δ} {h : γ → δ}
    (hf : ∀ b, (f b).map h = g b) (bs : List β) : (bs.mapM f).map (List.map h) = bs.mapM g := by
  induction bs with
  | nil => rfl
  | cons b bs ih =>
    rw [List.mapM_cons, List.mapM_cons, ← hf b, ← ih]
    cases f b with
    | none => rfl
    | some c => cases bs.mapM f <;> rfl

/-- The form of a list, by that of its items. -/
def listForm (form : Json → Option Json) : Json → Option Json
  | .arr items => (items.mapM form).map .arr
  | _ => none

/-- A list has the forms of its items. -/
theorem RoundTrip.list (h : RoundTrip write read form) :
    RoundTrip (fun xs => .arr (xs.map write)) (listOf? read) (listForm form) where
  read_write _ := listOf?_map h.read_write
  map_write v := by
    cases v with
    | arr items =>
      show (items.mapM read).map _ = (items.mapM form).map Json.arr
      rw [← map_mapM h.map_write, Option.map_map]
      rfl
    | _ => rfl

/-- The form of a map, by that of its values: the last of each name, in order. -/
def mapForm (form : Json → Option Json) (v : Json) : Option Json := do
  let members ← v.members?
  let formed ← members.mapM fun (k, v) => (form v).map fun w => (k, w)
  return .obj (lastByName formed).toList

theorem map_insert {β : Type} (f : α → β) (acc : Std.ExtTreeMap String α) (k : String) (x : α) :
    (acc.insert k x).map (fun _ => f) = (acc.map fun _ => f).insert k (f x) := by
  refine Std.ExtTreeMap.ext_getElem? fun l => ?_
  rw [Std.ExtTreeMap.getElem?_map, Std.ExtTreeMap.getElem?_insert, Std.ExtTreeMap.getElem?_insert,
    Std.ExtTreeMap.getElem?_map]
  split <;> rfl

theorem map_foldl_insert {β : Type} (f : α → β) (members : List (String × α))
    (acc : Std.ExtTreeMap String α) :
    (members.foldl (fun m (k, x) => m.insert k x) acc).map (fun _ => f)
      = (members.map fun (k, x) => (k, f x)).foldl (fun m (k, x) => m.insert k x)
        (acc.map fun _ => f) := by
  induction members generalizing acc with
  | nil => rfl
  | cons member members ih => rw [List.foldl_cons, ih, map_insert, List.map_cons, List.foldl_cons]

/-- Pairs that are put into a map are written as if each was written first. -/
theorem ofMap_foldl_insert (f : α → Json) (members : List (String × α)) :
    ofMap f (members.foldl (fun m (k, x) => m.insert k x) ∅)
      = .obj (lastByName (members.map fun (k, x) => (k, f x))).toList := by
  have hempty : (∅ : Std.ExtTreeMap String α).map (fun _ => f) = ∅ :=
    Std.ExtTreeMap.map_eq_empty_iff.2 rfl
  rw [ofMap, lastByName, ← hempty, ← map_foldl_insert, Std.ExtTreeMap.toList_map]

/-- A map has the forms of its values, each under its name. -/
theorem RoundTrip.map (h : RoundTrip write read form) :
    RoundTrip (ofMap write) (mapOf? read) (mapForm form) where
  read_write m := by
    -- all values are read back, each under its name
    have hmembers : (m.toList.map fun p : String × α => (p.1, write p.2)).mapM
        (fun p : String × Json => (read p.2).map fun x => (p.1, x)) = some (m.toList.map id) := by
      refine mapM_map m.toList fun p => ?_
      show (read (write p.2)).map _ = _
      rw [h.read_write]
      rfl
    rw [List.map_id] at hmembers
    exact Option.bind_eq_some_iff.2 ⟨_, hmembers, congrArg some (foldl_insert_toList m)⟩
  map_write v := by
    cases v with
    | obj members =>
      have hformed := map_mapM (f := fun p : String × Json => (read p.2).map fun x => (p.1, x))
        (g := fun p => (form p.2).map fun w => (p.1, w)) (h := fun p => (p.1, write p.2))
        (fun p => by rw [Option.map_map]; exact h.map_comp (fun w => (p.1, w)) p.2) members
      show (Option.bind (members.mapM fun p => (read p.2).map fun x => (p.1, x)) _).map _
        = Option.bind (members.mapM fun p => (form p.2).map fun w => (p.1, w)) _
      rw [← hformed]
      cases members.mapM fun p : String × Json => (read p.2).map fun x => (p.1, x) with
      | none => rfl
      | some pairs => exact congrArg some (ofMap_foldl_insert write pairs)
    | _ => rfl

end Collections

/-! ## Fields

A field may be required, optional, filled in or left out. Its form says what becomes of it when it
is absent. -/

/-- The form of a field: what is written of it, from what was given for it. -/
abbrev FieldForm := Option Json → Option (Option Json)

namespace FieldForm

variable (form : Json → Option Json)

/-- A field that must be given. -/
def required : FieldForm := fun v => (v.bind form).map some

/-- A field that is left out if it is null. -/
def optional : FieldForm
  | none | some .null => some none
  | some v => (form v).map some

/-- A field that is filled in if it is absent. -/
def filled (default : Json) : FieldForm
  | none => some (some default)
  | some v => (form v).map some

/-- A field that is left out if it has a default. -/
def dropped (default : Json) : FieldForm
  | none => some none
  | some v => (form v).map fun w => if w = default then none else some w

/-- The form of a field whose values have a given form. -/
inductive Of : FieldForm → Prop where
  | required : Of (.required form)
  | optional : Of (.optional form)
  | filled (default : Json) : Of (.filled form default)
  | dropped (default : Json) : Of (.dropped form default)

end FieldForm

/-- Reads a field that must be given. -/
def mustRead {α : Type} (read : Json → Option α) : Option Json → Option α := fun v => v.bind read

/-- Reads a field with a default for when it is absent. -/
def orDefault {α : Type} (default : α) (read : Json → Option α) : Option Json → Option α
  | none => some default
  | some v => read v

namespace RoundTrip

variable {α : Type} {write : α → Json} {read : Json → Option α} {form : Json → Option Json}

/-- It is there, so it is written. -/
theorem required (h : RoundTrip write read form) :
    RoundTrip (fun x => some (write x)) (mustRead read) (FieldForm.required form) where
  read_write := h.read_write
  map_write v := by
    cases v with
    | none => rfl
    | some w => exact h.map_comp some w

/-- It is written even if it was absent. -/
theorem filled (h : RoundTrip write read form) (default : α) :
    RoundTrip (fun x => some (write x)) (orDefault default read)
      (FieldForm.filled form (write default)) where
  read_write := h.read_write
  map_write v := by
    cases v with
    | none => rfl
    | some w => exact h.map_comp some w

/-- It is written unless it is the default. -/
theorem dropped (h : RoundTrip write read form) (default : α) (written : α → Option Json)
    (hnone : written default = none) (hsome : ∀ x, x ≠ default → written x = some (write x)) :
    RoundTrip written (orDefault default read) (FieldForm.dropped form (write default)) where
  read_write x := by
    by_cases hx : x = default
    · rw [hx, hnone]
      rfl
    · rw [hsome x hx]
      exact h.read_write x
  map_write v := by
    cases v with
    | none => exact congrArg some hnone
    | some w =>
      -- whether it is the default is seen from what would be written
      have hwritten : ∀ x, written x = if write x = write default then none
          else some (write x) := by
        intro x
        by_cases hx : x = default
        · rw [hx, hnone, if_pos rfl]
        · rw [hsome x hx, if_neg fun heq => hx (h.write_inj heq)]
      rw [funext hwritten]
      exact h.map_comp (fun u => if u = write default then none else some u) w

/-- A field that may be absent or null, if what is written of it is not null. -/
theorem optional (h : RoundTrip write read form) (hnull : ∀ x, write x ≠ .null) :
    RoundTrip (Option.map write) (orDefault none (optional? read)) (FieldForm.optional form) where
  read_write x := by
    cases x with
    | none => rfl
    | some x =>
      show optional? read (write x) = _
      unfold optional?
      split
      · next heq => exact (hnull x heq).elim
      · rw [h.read_write]
        rfl
  map_write v := by
    -- a field that is null is absent
    cases v with
    | none => rfl
    | some w =>
      show (optional? read w).map _ = _
      unfold optional?
      split
      · rfl
      · next hne =>
        rw [FieldForm.optional, Option.map_map]
        · exact h.map_comp some w
        · exact hne

end RoundTrip

/-! ## Records

Fields are read in the order of a table, by name or by place, and written in that order by name. -/

/-- The forms of the fields of a record, from a place on. -/
def Fields.formed (f : Fields) : Nat → List (String × FieldForm) →
    Option (List (String × Option Json))
  | _, [] => some []
  | place, (name, form) :: forms =>
    ((f.given? place name).bind form).bind fun v => (f.formed (place + 1) forms).map
    ((name, v) :: ·)

/-- The form of a record: its fields in the order of the table, each in its form. -/
def recordForm (forms : List (String × FieldForm)) (v : Json) : Option Json :=
  (fields? forms.length v).bind fun f => (f.formed 0 forms).map fun fields =>
  .obj (membersOf fields)

/-- Fields of a record, from a place on: reading them undoes writing them, and what is found is
written in their forms. Reading goes on with what was found. -/
structure FieldsTrip {α ρ : Type} (forms : List (String × FieldForm))
    (read : Nat → Fields → (α → Option ρ) → Option ρ) (write : α → List (String × Option Json)) :
    Prop where
  names : ∀ x, (write x).map Prod.fst = forms.map Prod.fst
  read_write : ∀ {f x}, (∀ place, ∀ p ∈ write x, f.given? place p.1 = some p.2) →
    ∀ place k, read place f k = k x
  found : ∀ place f, ∃ x : Option α, (∀ k, read place f k = x.bind k) ∧
    x.map write = f.formed place forms

namespace FieldsTrip

variable {α β ρ : Type} {forms : List (String × FieldForm)}
  {reads : Nat → Fields → (β → Option ρ) → Option ρ} {writes : β → List (String × Option Json)}

/-- No fields. -/
theorem nil : @FieldsTrip Unit ρ [] (fun _ _ k => k ()) fun _ => [] where
  names _ := rfl
  read_write _ _ _ := rfl
  found _ _ := ⟨some (), fun _ => rfl, rfl⟩

/-- One more field, in front of the others. -/
theorem cons {name : String} {write : α → Option Json} {read : Option Json → Option α}
    {form : FieldForm} (h : RoundTrip write read form) (hs : FieldsTrip forms reads writes) :
    FieldsTrip ((name, form) :: forms)
      (fun place f k => ((f.given? place name).bind read).bind fun a => reads (place + 1) f
        fun b => k (a, b))
      fun (a, b) => (name, write a) :: writes b where
  names x := congrArg (name :: ·) (hs.names x.2)
  read_write {f x} hgiven place k := by
    -- the first field is found under its name, which no other has
    have hfirst := hgiven place (name, write x.1) List.mem_cons_self
    rw [hfirst, Option.bind_some, h.read_write, Option.bind_some]
    exact hs.read_write (fun place p hp => hgiven place p (List.mem_cons_of_mem _ hp)) _ _
  found place f := by
    obtain ⟨rest, hreads, hwrites⟩ := hs.found (place + 1) f
    refine ⟨((f.given? place name).bind read).bind fun a => rest.map fun b => (a, b),
      fun k => ?_, ?_⟩
    · simp only [hreads, Option.bind_assoc, Option.bind_map]
      rfl
    · rw [Fields.formed, ← hwrites]
      cases f.given? place name with
      | none => rfl
      | some v =>
        rw [Option.bind_some, Option.bind_some, ← h.map_write]
        cases read v with
        | none => rfl
        | some a => cases rest <;> rfl

end FieldsTrip

/-- **A record makes the round trip if its fields do.** -/
theorem RoundTrip.record {α ρ : Type} {forms : List (String × FieldForm)}
    {reads : Nat → Fields → (α → Option ρ) → Option ρ} {writes : α → List (String × Option Json)}
    {write : ρ → Json} {read : Json → Option ρ} (h : FieldsTrip forms reads writes)
    (hnames : (forms.map Prod.fst).Nodup) (make : α → ρ) (parts : ρ → α)
    (hmake : ∀ x, make (parts x) = x) (hparts : ∀ a, parts (make a) = a)
    (hread : ∀ v, read v = (fields? forms.length v).bind fun f => reads 0 f fun a => some (make a))
    (hwrite : ∀ x, write x = .obj (membersOf (writes (parts x)))) :
    RoundTrip write read (recordForm forms) where
  read_write x := by
    rw [hread, hwrite]
    show reads 0 (.named (membersOf (writes (parts x)))) _ = _
    rw [h.read_write (fun _ _ => given?_membersOf (by rw [h.names]; exact hnames)), hmake]
  map_write v := by
    rw [hread, recordForm]
    cases fields? forms.length v with
    | none => rfl
    | some f =>
      obtain ⟨x, hreads, hwrites⟩ := h.found 0 f
      rw [Option.bind_some, Option.bind_some, hreads, ← hwrites]
      cases x with
      | none => rfl
      | some a =>
        show some (write (make a)) = some (.obj (membersOf (writes a)))
        rw [hwrite, hparts]

end MeshLimiter.Json
