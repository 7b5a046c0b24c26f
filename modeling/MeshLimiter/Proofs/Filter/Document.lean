import MeshLimiter.Filter.Document
import MeshLimiter.Proofs.Json.Form
/-!
# Filters read back

What is written of a filter reads as the filter, whatever the values of its patches are. A place
that says nothing of a part leaves it out, and so does the form of a place that says null there.

* **`FilterSpec.roundTrip`**: a written filter reads as itself, and a document of one is written in
  its form.
-/

namespace MeshLimiter

open Json
    (member? membersOf RoundTrip FieldForm textForm nameForm listForm mapForm recordForm
  roundTrip_any roundTrip_text)

/-- Labels are read back by name. -/
theorem Labels.roundTrip : RoundTrip toJson ofJson? (mapForm textForm) :=
  roundTrip_text.map

/-! ## Names

Each is read as one of a few, all of them different. -/

def ApplyTo.form : Json → Option Json :=
  nameForm ["HTTP_FILTER", "HTTP_ROUTE"]

theorem ApplyTo.roundTrip : RoundTrip (fun a : ApplyTo => .str a.name) ofJson? form := by
  refine Json.roundTrip_name (fun a => by cases a <;> rfl) fun v => ?_
  unfold ofJson?
  cases v.name? with
  | none => rfl
  | some s => rw [Option.filter_some]; split <;> simp_all [name]

def PatchContext.form : Json → Option Json :=
  nameForm ["SIDECAR_INBOUND", "SIDECAR_OUTBOUND"]

theorem PatchContext.roundTrip : RoundTrip (fun c : PatchContext => .str c.name) ofJson? form := by
  refine Json.roundTrip_name (fun c => by cases c <;> rfl) fun v => ?_
  unfold ofJson?
  cases v.name? with
  | none => rfl
  | some s => rw [Option.filter_some]; split <;> simp_all [name]

def PatchOperation.form : Json → Option Json :=
  nameForm ["MERGE", "INSERT_BEFORE"]

theorem PatchOperation.roundTrip : RoundTrip
    (fun o : PatchOperation => .str o.name) ofJson? form := by
  refine Json.roundTrip_name (fun o => by cases o <;> rfl) fun v => ?_
  unfold ofJson?
  cases v.name? with
  | none => rfl
  | some s => rw [Option.filter_some]; split <;> simp_all [name]

def Json.namedForms : List (String × FieldForm) :=
  [("name", .required textForm)]

/-- A name in a record of its own. -/
theorem Json.roundTrip_named : RoundTrip named nameOfRecord? (recordForm namedForms) :=
  .record (.cons roundTrip_text.required .nil) (by decide) (fun (name, _) => name)
    (fun name => (name, ()))
    (fun _ => rfl) (fun _ => rfl) (fun _ => Option.bind_congr fun _ _ =>
      (Option.bind_fun_some _).symm)
    fun _ => rfl

/-! ## Places

Each part of a place may be left out. The records are nested, and each makes the round trip by its
fields. -/

def FilterMatch.forms : List (String × FieldForm) :=
  [("name", .required textForm), ("subFilter", .optional (recordForm Json.namedForms))]

theorem FilterMatch.roundTrip : RoundTrip toJson ofJson? (recordForm forms) :=
  .record (.cons roundTrip_text.required (.cons (Json.roundTrip_named.optional nofun) .nil))
    (by decide)
    (fun (name, subFilter, _) => { name, subFilter }) (fun m => (m.name, m.subFilter, ()))
    (fun _ => rfl) (fun _ => rfl) (fun _ => rfl)
    fun m => by simp [toJson, membersOf, member?]

def FilterChainMatch.forms : List (String × FieldForm) :=
  [("filter", .optional (recordForm FilterMatch.forms))]

theorem FilterChainMatch.roundTrip : RoundTrip toJson ofJson? (recordForm forms) :=
  .record (.cons (FilterMatch.roundTrip.optional nofun) .nil) (by decide)
    (fun (filter, _) => { filter }) (fun m => (m.filter, ()))
    (fun _ => rfl) (fun _ => rfl) (fun _ => rfl)
    fun m => by simp [toJson, membersOf]

def ListenerMatch.forms : List (String × FieldForm) :=
  [("filterChain", .optional (recordForm FilterChainMatch.forms))]

/-- A listener by its chain. -/
theorem ListenerMatch.roundTrip : RoundTrip toJson ofJson? (recordForm forms) :=
  .record (.cons (FilterChainMatch.roundTrip.optional nofun) .nil) (by decide)
    (fun (filterChain, _) => { filterChain }) (fun m => (m.filterChain, ()))
    (fun _ => rfl) (fun _ => rfl) (fun _ => rfl)
    fun m => by simp [toJson, membersOf]

def VirtualHostMatch.forms : List (String × FieldForm) :=
  [("name", .optional textForm), ("route", .optional (recordForm Json.namedForms))]

theorem VirtualHostMatch.roundTrip : RoundTrip toJson ofJson? (recordForm forms) :=
  .record (.cons (roundTrip_text.optional nofun) (.cons (Json.roundTrip_named.optional nofun) .nil))
    (by decide) (fun (name, route, _) => { name, route }) (fun m => (m.name, m.route, ()))
    (fun _ => rfl) (fun _ => rfl) (fun _ => rfl)
    fun m => by simp [toJson, membersOf]

def RouteConfigurationMatch.forms : List (String × FieldForm) :=
  [("vhost", .optional (recordForm VirtualHostMatch.forms))]

/-- A route configuration by its virtual host. -/
theorem RouteConfigurationMatch.roundTrip : RoundTrip toJson ofJson? (recordForm forms) :=
  .record (.cons (VirtualHostMatch.roundTrip.optional nofun) .nil) (by decide)
    (fun (vhost, _) => { vhost }) (fun m => (m.vhost, ()))
    (fun _ => rfl) (fun _ => rfl) (fun _ => rfl)
    fun m => by simp [toJson, membersOf]

def ObjectMatch.forms : List (String × FieldForm) :=
  [("context", .optional PatchContext.form),
    ("listener", .optional (recordForm ListenerMatch.forms)),
    ("routeConfiguration", .optional (recordForm RouteConfigurationMatch.forms))]

/-- An object by the part of it that is matched. -/
theorem ObjectMatch.roundTrip : RoundTrip toJson ofJson? (recordForm forms) :=
  .record (.cons (PatchContext.roundTrip.optional nofun)
    (.cons (ListenerMatch.roundTrip.optional nofun)
      (.cons (RouteConfigurationMatch.roundTrip.optional nofun) .nil)))
    (by decide) (fun (context, listener, routeConfiguration, _) =>
      { context, listener, routeConfiguration })
    (fun m => (m.context, m.listener, m.routeConfiguration, ()))
    (fun _ => rfl) (fun _ => rfl) (fun _ => rfl)
    fun m => by simp [toJson, membersOf]

/-! ## Patches

A patch has a kind, a place and a change. A filter is a list of them, possibly for some pods
only. -/

namespace ConfigPatch

/-- The operation has a form of its own; the value is kept as it is. -/
def patchForms : List (String × FieldForm) :=
  [("operation", .required PatchOperation.form), ("value", .required some)]

/-- The value of a change is kept as it is. -/
theorem roundTrip_patch : RoundTrip
    (fun (p : PatchOperation × Json) => .obj [("operation", .str p.1.name), ("value", p.2)])
    patchOfJson? (recordForm patchForms) :=
  .record (.cons PatchOperation.roundTrip.required (.cons roundTrip_any.required .nil)) (by decide)
    (fun (operation, value, _) => (operation, value)) (fun p => (p.1, p.2, ()))
    (fun _ => rfl) (fun _ => rfl) (fun _ => rfl) fun _ => rfl

def forms : List (String × FieldForm) :=
  [("applyTo", .required ApplyTo.form), ("match", .optional (recordForm ObjectMatch.forms)),
    ("patch", .required (recordForm patchForms))]

theorem roundTrip : RoundTrip toJson ofJson? (recordForm forms) :=
  .record (.cons ApplyTo.roundTrip.required (.cons (ObjectMatch.roundTrip.optional nofun)
      (.cons roundTrip_patch.required .nil)))
    (by decide)
    (fun (applyTo, place, (operation, value), _) => { applyTo, place, operation, value })
    (fun p => (p.applyTo, p.place, (p.operation, p.value), ()))
    (fun _ => rfl) (fun _ => rfl) (fun _ => rfl)
    fun p => by simp [toJson, patchToJson, membersOf, member?]

end ConfigPatch

namespace FilterSpec

def selectorForms : List (String × FieldForm) :=
  [("labels", .filled (mapForm textForm) (.obj []))]

theorem roundTrip_selector : RoundTrip selectorToJson selectorOfJson? (recordForm selectorForms) :=
  .record (.cons (Labels.roundTrip.filled ∅) .nil) (by decide) (fun (labels, _) => labels)
    (fun labels => (labels, ())) (fun _ => rfl) (fun _ => rfl)
    (fun _ => Option.bind_congr fun _ _ => (Option.bind_fun_some _).symm) fun _ => rfl

def forms : List (String × FieldForm) :=
  [("workloadSelector", .optional (recordForm selectorForms)),
    ("configPatches", .filled (listForm (recordForm ConfigPatch.forms)) (.arr []))]

theorem roundTrip : RoundTrip toJson ofJson? (recordForm forms) :=
  .record (.cons (roundTrip_selector.optional nofun)
    (.cons (ConfigPatch.roundTrip.list.filled []) .nil))
    (by decide) (fun (workload, patches, _) => { workload, patches })
      (fun s => (s.workload, s.patches, ()))
    (fun _ => rfl) (fun _ => rfl) (fun _ => rfl)
    fun s => by simp [toJson, membersOf, member?]

end FilterSpec

end MeshLimiter
