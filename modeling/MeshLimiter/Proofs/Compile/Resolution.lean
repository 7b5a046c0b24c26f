import MeshLimiter.Proofs.Compile.Rules
import MeshLimiter.Proofs.Decimal.Whole
import MeshLimiter.Proofs.Template.Layout
import MeshLimiter.Proofs.Template.Spelling
/-!
# Descriptors in force

Resolving descriptors is a filter: those in force are kept, in order, and nothing of them changes
but the quota, which is written as the number that it comes to. Written in this way a quota comes to
the same number again, whatever template it came from, so resolving once more changes nothing.

* **`Template.quota_natText`**: the digits of a quota evaluate to the quota;
* **`Descriptor.inForce`**, **`Descriptor.ResolvedTo`**: which descriptors are in force, and what
  becomes of them;
* **`resolve_filters`**: resolving is an idempotent filter that keeps the order.
-/

namespace MeshLimiter

open Decimal (Literal natText natDigits)

/-! ## The digits of a quota

A quota that was resolved is a number, and resolves to itself. -/

namespace Template

/-- Digits have nothing to fill in. -/
theorem render_natText (n : Nat) (m : Material) : render (natText n) m = .ok (natText n) := by
  have hplain : ¬ openMark <:+: (natText n).toList := by
    intro hopen
    have hbrace : '\x7b' ∈ (natText n).toList := hopen.subset List.mem_cons_self
    rw [natText, String.toList_ofList] at hbrace
    cases Decimal.isDigit_of_mem_natDigits hbrace
  rw [render_eq, rendered_plain hplain]
  exact congrArg Except.ok String.ofList_toList

/-- Digits are an expression, of the number that they read as. -/
theorem evaluate_natText (n : Nat) :
    evaluate (natText n).toList = .ok (.number (Literal.toFloat ⟨natDigits n, 0⟩)) := by
  have hread : Literal.read? (natDigits n) = some ⟨natDigits n, 0⟩ :=
    Literal.read?_digits (Decimal.natDigits_ne_nil n) fun c => Decimal.isDigit_of_mem_natDigits
  have hspelled : Spelled [.number (Literal.toFloat ⟨natDigits n, 0⟩)]
      ([] ++ (natDigits n ++ [])) :=
    .cons rfl (.number hread) (.nil rfl)
  rw [List.nil_append, List.append_nil] at hspelled
  rw [natText, String.toList_ofList]
  exact evaluate_of_derives hspelled ((Derives.number _).loosen (by decide) (by decide))

variable {x : Float} {q : UInt64} {template : String} {m m' : Material}

theorem quotaOf_eq_ok_iff : quotaOf x = .ok q ↔
    Decimal.isFinite x = true ∧ ¬ x < 0.0 ∧ x.toUInt64 = q := by
  unfold quotaOf
  split
  · next h =>
    constructor
    · exact nofun
    · rintro ⟨hfinite, hsign, -⟩
      simp [hfinite, hsign] at h
  · next h =>
    simp only [Bool.or_eq_true, Bool.not_eq_true', decide_eq_true_eq, not_or,
      Bool.not_eq_false] at h
    simp [h]

/-- A quota is a number that a double is cut to. -/
theorem cut_of_quota (h : quota template m = .ok q) : Decimal.Cut q.toNat := by
  obtain ⟨text, -, hvalue⟩ := bind_eq_ok.1 h
  obtain ⟨x, -, hx⟩ := bind_eq_ok.1 hvalue
  rw [← (quotaOf_eq_ok_iff.1 hx).2.2]
  exact Decimal.cut_toUInt64 x

/-- **The digits of a quota evaluate to the quota**, against any material. -/
theorem quota_natText (h : quota template m = .ok q) : quota (natText q.toNat) m' = .ok q := by
  obtain ⟨hfinite, hsign, hcut⟩ := Decimal.toUInt64_toFloat_natDigits q.toNat_lt (cut_of_quota h)
  rw [quota, render_natText]
  show ((evaluate (natText q.toNat).toList >>= Value.asNumber).mapError
      (Fault.inExpression _) >>= quotaOf) = _
  rw [evaluate_natText]
  exact quotaOf_eq_ok_iff.2 ⟨hfinite, hsign, UInt64.toNat_inj.1 hcut⟩

end Template

/-! ## One descriptor

Its condition and its quota are looked at by themselves. -/

namespace Descriptor

variable {m : Material} {d : Descriptor} {r : Resolved}

/-- Whether a descriptor is in force: its condition evaluates to true, it has an action, and the
quota of that evaluates. -/
def inForce (m : Material) (d : Descriptor) : Bool :=
  (Template.condition d.condition m).toOption = some true &&
    d.action.any fun action => (Template.quota action.quota m).isOk

/-- What becomes of a descriptor in force: its quota is a number, and it is unchanged but for this
number in the place of the quota. -/
structure ResolvedTo (m : Material) (d : Descriptor) (r : Resolved) : Prop where
  quota : d.action.map (fun action => Template.quota action.quota m) = some (.ok r.quota)
  descriptor : r.descriptor =
    { d with action := d.action.map fun action => { action with quota := natText r.quota.toNat } }

theorem inForce_iff : d.inForce m = true ↔ Template.condition d.condition m = .ok true ∧
    ∃ action quota, d.action = some action ∧ Template.quota action.quota m = .ok quota := by
  have hcondition : (Template.condition d.condition m).toOption = some true ↔
      Template.condition d.condition m = .ok true := by
    cases Template.condition d.condition m <;> simp [Except.toOption]
  have hquota : ∀ action, (Template.quota action m).isOk = true ↔
      ∃ q, Template.quota action m = .ok q := by
    intro action
    cases Template.quota action m <;> simp [Except.isOk, Except.toBool]
  rw [inForce, Bool.and_eq_true, decide_eq_true_iff, hcondition, Option.any_eq_true]
  simp only [hquota, exists_and_left]

theorem inForce_of_resolve? (h : d.resolve? m = some r) :
    d.inForce m = true ∧ d.ResolvedTo m r := by
  obtain ⟨action, hcondition, haction, hquota, hdescriptor⟩ := resolve?_eq_some_iff.1 h
  exact ⟨inForce_iff.2 ⟨hcondition, action, _, haction, hquota⟩,
    by rw [haction, Option.map_some, hquota], hdescriptor⟩

theorem not_inForce_of_resolve? (h : d.resolve? m = none) : d.inForce m = false := by
  refine Bool.eq_false_iff.2 fun hforce => ?_
  obtain ⟨hcondition, action, quota, haction, hquota⟩ := inForce_iff.1 hforce
  have hsome : d.resolve? m = some ⟨d.withQuota quota, quota⟩ :=
    resolve?_eq_some_iff.2 ⟨action, hcondition, haction, hquota, rfl⟩
  cases h.symm.trans hsome

/-- A descriptor that was resolved resolves to itself. -/
theorem resolve?_descriptor (h : d.resolve? m = some r) : r.descriptor.resolve? m = some r := by
  obtain ⟨action, hcondition, haction, hquota, hdescriptor⟩ := resolve?_eq_some_iff.1 h
  have haction' : r.descriptor.action = some { action with quota := natText r.quota.toNat } := by
    rw [hdescriptor, withQuota, haction, Option.map_some]
  refine resolve?_eq_some_iff.2 ⟨_, ?_, haction', Template.quota_natText hquota, ?_⟩
  · rw [hdescriptor]
    exact hcondition
  · rw [hdescriptor, withQuota, withQuota, haction]
    rfl

end Descriptor

/-! ## All descriptors

What becomes of one does not depend on the others. -/

/-- The result goes along the descriptors in force. -/
theorem forall₂_resolve (m : Material) (ds : List Descriptor) :
    List.Forall₂ (Descriptor.ResolvedTo m) (ds.filter (Descriptor.inForce m)) (resolve m ds) := by
  induction ds with
  | nil => exact .nil
  | cons d ds ih =>
    rw [resolve]
    cases hd : d.resolve? m with
    | none =>
      have hout : ¬ d.inForce m = true :=
        Bool.eq_false_iff.1 (Descriptor.not_inForce_of_resolve? hd)
      rw [List.filterMap_cons_none hd, List.filter_cons_of_neg hout]
      exact ih
    | some r =>
      obtain ⟨hforce, hr⟩ := Descriptor.inForce_of_resolve? hd
      rw [List.filterMap_cons_some hd, List.filter_cons_of_pos hforce]
      exact .cons hr ih

/-- **Resolving is an idempotent filter that keeps the order.** The result goes along the
descriptors that are in force, each of which is unchanged but for its quota, now a number; and the
descriptors of the result resolve to the result. -/
theorem resolve_filters (m : Material) (ds : List Descriptor) :
    List.Forall₂ (Descriptor.ResolvedTo m) (ds.filter (Descriptor.inForce m)) (resolve m ds) ∧
    resolve m ((resolve m ds).map (·.descriptor)) = resolve m ds := by
  refine ⟨forall₂_resolve m ds, ?_⟩
  have hagain : ∀ r ∈ resolve m ds, r.descriptor.resolve? m = some r := by
    intro r hr
    obtain ⟨d, -, hd⟩ := List.mem_filterMap.1 hr
    exact Descriptor.resolve?_descriptor hd
  have hmap : resolve m ((resolve m ds).map (·.descriptor)) = (resolve m ds).filterMap some := by
    rw [resolve, List.filterMap_map]
    exact List.filterMap_congr hagain
  rw [hmap, List.filterMap_some]

/-- A quota beyond 64 bits is cut to the largest number, whose digits are no double. -/
example :
    (resolve {} [{ action := some { quota := "1e30", fillInterval := { seconds := 1 } } }]).map
    (fun r => r.descriptor.action.map (·.quota)) = [some "18446744073709551615"] := by
  decide +kernel

end MeshLimiter
