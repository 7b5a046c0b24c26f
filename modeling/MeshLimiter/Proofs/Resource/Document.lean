import MeshLimiter.Proofs.Filter.Document
import MeshLimiter.Proofs.Json.Alike
import MeshLimiter.Proofs.Registry.Document
import MeshLimiter.Resource.Document
/-!
# Documents survive being read and written

What a limiter asks for and what is in force, a filter, the subsets of a traffic rule and the
registry are read back as they were written. A document that someone else wrote is written in its
form: a null in the place of an optional field, an empty list of matchers, nanoseconds of zero and a
flag that is off are left out.

* **`Json.Survives`**: what it means for a kind of document to survive;
* **`Json.blanks`**: the members that are as good as none, by the kind of record;
* **`documents_survive`**: every kind of document survives, and no such member matters.
-/

namespace MeshLimiter

open Json (RoundTrip FieldForm Alike Ignores textForm listForm mapForm recordForm ignores_recordForm
  roundTrip_text)

/-! ## Traffic rules

A rule has a host and subsets. -/

def Subset.forms : List (String × FieldForm) :=
  [("name", .required textForm), ("labels", .filled (mapForm textForm) (.obj []))]

theorem Subset.roundTrip : RoundTrip toJson ofJson? (recordForm forms) :=
  .record (.cons roundTrip_text.required (.cons (Labels.roundTrip.filled ∅) .nil)) (by decide)
    (fun (name, labels, _) => { name, labels }) (fun s => (s.name, s.labels, ()))
    (fun _ => rfl) (fun _ => rfl) (fun _ => rfl) fun _ => rfl

def TrafficRule.specForms : List (String × FieldForm) :=
  [("host", .filled textForm (.str "")),
    ("subsets", .filled (listForm (recordForm Subset.forms)) (.arr []))]

theorem TrafficRule.roundTrip_spec : RoundTrip specToJson specOfJson? (recordForm specForms) :=
  .record (.cons (roundTrip_text.filled "") (.cons (Subset.roundTrip.list.filled []) .nil))
    (by decide) (fun (host, subsets, _) => { host, subsets }) (fun s => (s.host, s.subsets, ()))
    (fun _ => rfl) (fun _ => rfl) (fun _ => rfl) fun _ => rfl

/-! ## Every kind of document

Each has its table of fields, and with it the round trip. -/

/-- Documents of a kind are read back as they were written. Those that have a form are the ones that
can be read, and the form is what is written of them, which is read as the same again. Documents
that say the same have the same form and are read alike. -/
structure Json.Survives {α : Type} (write : α → Json) (read : Json → Option α)
    (form : Json → Option Json) : Prop where
  read_write : ∀ x, read (write x) = some x
  rewrite : ∀ v, (read v).map write = form v
  again : ∀ v x, read v = some x → ∃ w, form v = some w ∧ read w = some x
  alike : ∀ v w, Alike form v w → form v = form w ∧ read v = read w

theorem Json.RoundTrip.survives {α : Type} {write : α → Json} {read : Json → Option α}
    {form : Json → Option Json} (h : RoundTrip write read form) : Survives write read form where
  read_write := h.read_write
  rewrite := h.map_write
  again v x hv := ⟨write x, by rw [← h.map_write, hv]; rfl, h.read_write x⟩
  alike _ _ halike := ⟨halike.form_eq.1, h.read_eq_of_alike halike⟩

/-- The members that are as good as none, for each kind of record: the optional ones if they are
null, and those that are left out when they have their default. -/
def Json.blanks : List (List (String × FieldForm) × List (String × Json)) :=
  [(FillInterval.forms, [("nanos", .ofInt 0)]),
    (Action.forms, [("rateLimitService", .null)]),
    (HeaderMatcher.forms, [("regexMatch", .null), ("exactMatch", .null), ("prefixMatch", .null),
      ("suffixMatch", .null), ("presentMatch", .null), ("isExactMatchEmpty", .bool false),
      ("invertMatch", .bool false)]),
    (Target.forms, [("direction", .null), ("port", .null)]),
    (Descriptor.forms, [("action", .null), ("match", .arr []), ("target", .null),
      ("customKey", .null), ("customValue", .null)]),
    (FilterMatch.forms, [("subFilter", .null)]),
    (FilterChainMatch.forms, [("filter", .null)]),
    (ListenerMatch.forms, [("filterChain", .null)]),
    (VirtualHostMatch.forms, [("name", .null), ("route", .null)]),
    (RouteConfigurationMatch.forms, [("vhost", .null)]),
    (ObjectMatch.forms, [("context", .null), ("listener", .null), ("routeConfiguration", .null)]),
    (ConfigPatch.forms, [("match", .null)]),
    (FilterSpec.forms, [("workloadSelector", .null)])]

/-- Every one of them belongs to a field that has the same form without it. -/
theorem Json.form_blank : ∀ r ∈ blanks, (r.1.map Prod.fst).Nodup ∧
    ∀ b ∈ r.2, ∃ f ∈ r.1, f.1 = b.1 ∧ f.2 (some b.2) = f.2 none := by
  decide

theorem Json.ignores_blank : ∀ r ∈ blanks, ∀ b ∈ r.2, Ignores (recordForm r.1) b.1 b.2 := by
  intro r hr b hb
  obtain ⟨hnames, hforms⟩ := form_blank r hr
  obtain ⟨⟨name, f⟩, hmem, rfl, hblank⟩ := hforms b hb
  exact ignores_recordForm hnames hmem hblank

/-- **Documents survive being read and written.** What is written is read back; what is read is
written in the form of the document, whichever way it was spelled. For every record inside of one, a
null in the place of an optional field is as good as none, and so are no matchers, no nanoseconds
and flags that are off. -/
theorem documents_survive :
    Json.Survives LimiterSpec.toJson LimiterSpec.ofJson? (recordForm LimiterSpec.forms) ∧
    Json.Survives LimiterStatus.toJson LimiterStatus.ofJson? (recordForm LimiterStatus.forms) ∧
    Json.Survives FilterSpec.toJson FilterSpec.ofJson? (recordForm FilterSpec.forms) ∧
    Json.Survives TrafficRule.specToJson TrafficRule.specOfJson?
      (recordForm TrafficRule.specForms) ∧
    Json.Survives Registry.toJson Registry.ofJson? (recordForm Registry.forms) ∧
    ∀ r ∈ Json.blanks, ∀ b ∈ r.2, Ignores (recordForm r.1) b.1 b.2 :=
  ⟨LimiterSpec.roundTrip.survives, LimiterStatus.roundTrip.survives, FilterSpec.roundTrip.survives,
    TrafficRule.roundTrip_spec.survives, Registry.roundTrip.survives, Json.ignores_blank⟩

/-- A null action is as good as none, deep in the document of a limiter. -/
theorem documents_survive_null_action :
    LimiterSpec.ofJson?
      (.obj [("sets", .obj [("v1", .obj [("descriptor", .arr [.obj [("action", .null)]])])])])
      = some { sets := (∅ : Std.ExtTreeMap String (List Descriptor)).insert "v1" [{}] } := by
  obtain ⟨hspec, -, -, -, -, hblanks⟩ := documents_survive
  have haction : Ignores (recordForm Descriptor.forms) "action" .null :=
    hblanks _ (List.mem_of_getElem? (i := 4) rfl) ("action", .null) List.mem_cons_self
  have hdescriptor : Alike (recordForm Descriptor.forms) (.obj [("action", .null)]) (.obj []) :=
    @Alike.blank _ _ _ [] [] haction nofun
  have hset : Alike (recordForm Descriptor.setForms)
      (.obj [("descriptor", .arr [.obj [("action", .null)]])])
      (.obj [("descriptor", .arr [.obj []])]) := by
    refine @Alike.member _ _ _ _ _ [] [] (fun f hf => ?_) (@Alike.item _ _ _ [] [] hdescriptor)
    obtain rfl := (Prod.mk.inj (List.mem_singleton.1 hf)).2
    exact .filled _
  have hsets : Alike (recordForm LimiterSpec.forms)
      (.obj [("sets", .obj [("v1", .obj [("descriptor", .arr [.obj [("action", .null)]])])])])
      (.obj [("sets", .obj [("v1", .obj [("descriptor", .arr [.obj []])])])]) := by
    refine @Alike.member _ _ _ _ _ [] [] (fun f hf => ?_) (@Alike.value _ "v1" _ _ [] [] hset)
    obtain rfl := (Prod.mk.inj (List.mem_singleton.1 hf)).2
    exact .filled _
  rw [(hspec.alike _ _ hsets).2]
  rfl

end MeshLimiter
