import MeshLimiter.Proofs.Limiter.Document
import MeshLimiter.Registry.Document
/-!
# The registry read back

What is written of the registry reads as the registry.

* **`Registry.roundTrip`**: a written registry reads as itself, and a document of one is written in
  its form.
-/

namespace MeshLimiter

open Json (RoundTrip FieldForm textForm natForm nameForm listForm recordForm roundTrip_text)

def RateUnit.form : Json → Option Json :=
  nameForm ["SECOND", "MINUTE", "HOUR", "DAY"]

theorem RateUnit.roundTrip : RoundTrip (fun u : RateUnit => .str u.name) ofJson? form := by
  refine Json.roundTrip_name (fun u => by cases u <;> rfl) fun v => ?_
  unfold ofJson?
  cases v.name? with
  | none => rfl
  | some s =>
    rw [Option.filter_some, Option.bind_some]
    unfold ofName?
    split <;> simp_all [name]

def RateLimit.forms : List (String × FieldForm) :=
  [("requests_per_unit", .required (natForm 64)), ("unit", .required RateUnit.form)]

theorem RateLimit.roundTrip : RoundTrip toJson ofJson? (recordForm forms) :=
  .record (.cons Json.roundTrip_uint64.required (.cons RateUnit.roundTrip.required .nil))
    (by decide) (fun (requestsPerUnit, unit, _) => { requestsPerUnit, unit })
    (fun l => (l.requestsPerUnit, l.unit, ()))
    (fun _ => rfl) (fun _ => rfl) (fun _ => rfl) fun _ => rfl

def GlobalDescriptor.forms : List (String × FieldForm) :=
  [("key", .required textForm), ("value", .required textForm),
    ("rate_limit", .required (recordForm RateLimit.forms))]

theorem GlobalDescriptor.roundTrip : RoundTrip toJson ofJson? (recordForm forms) :=
  .record (.cons roundTrip_text.required (.cons roundTrip_text.required
      (.cons RateLimit.roundTrip.required .nil)))
    (by decide) (fun (key, value, rateLimit, _) => { key, value, rateLimit })
    (fun d => (d.key, d.value, d.rateLimit, ()))
    (fun _ => rfl) (fun _ => rfl) (fun _ => rfl) fun _ => rfl

def Registry.forms : List (String × FieldForm) :=
  [("domain", .required textForm),
    ("descriptors", .filled (listForm (recordForm GlobalDescriptor.forms)) (.arr []))]

theorem Registry.roundTrip : RoundTrip toJson ofJson? (recordForm forms) :=
  .record (.cons roundTrip_text.required (.cons (GlobalDescriptor.roundTrip.list.filled []) .nil))
    (by decide) (fun (domain, descriptors, _) => { domain, descriptors })
    (fun r => (r.domain, r.descriptors, ()))
    (fun _ => rfl) (fun _ => rfl) (fun _ => rfl) fun _ => rfl

end MeshLimiter
