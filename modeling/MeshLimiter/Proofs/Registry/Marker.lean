import MeshLimiter.Compile.Plan
import MeshLimiter.Proofs.Text.Search
/-!
# Whose entry a value names

An entry of the registry belongs to a service if the marker of the service stands anywhere inside
its value. This module shows that the search cannot go wrong on generated values:

* **`pair_not_infix_valueTail`**: the pair `e[`, with which the opening of the marker ends, stands
  only once in a generated value;
* **`belongsTo_iff_of_generatedFor`**: a value generated for one service carries the marker of
  another service only if the two are the same.

Both need names as the cluster allows them: no brackets in a name, and no dot in a namespace. Names
may otherwise be prefixes or suffixes of one another.
-/

namespace MeshLimiter

/-- Names as the cluster allows them: no brackets, and no dot in the namespace. -/
structure ResourceId.WellNamed (id : ResourceId) : Prop where
  name_open : '[' ∉ id.name.toList
  name_close : ']' ∉ id.name.toList
  ns_open : '[' ∉ id.ns.toList
  ns_close : ']' ∉ id.ns.toList
  ns_dot : '.' ∉ id.ns.toList

/-- An entry whose value was generated for a rule of a service. -/
def GlobalDescriptor.GeneratedFor (d : GlobalDescriptor) (service : ResourceId) : Prop :=
  ∃ rule : Descriptor, d.value = descriptorValue service rule

/-! ## Two characters in a row

The marker opens with `Service[`. It is enough to look for its last two characters, so the search is
for a pair. -/

/-- A pair that is not begun in the first part of a text stands in the second part. -/
theorem infix_of_infix_append {x y : Char} {a b : List Char} (ha : y ∉ a) (hb : b.head? ≠ some y)
    (h : [x, y] <:+: a ++ b) : [x, y] <:+: b := by
  induction a with
  | nil => simpa using h
  | cons c cs ih =>
    rw [List.cons_append, List.infix_cons_iff] at h
    rcases h with h | h
    · -- the pair would begin at `c`, so the character after `c` would be `y`
      obtain ⟨-, h⟩ := List.cons_prefix_cons.1 h
      cases cs with
      | nil =>
        obtain ⟨t, rfl⟩ := h
        simp at hb
      | cons d ds =>
        rw [List.cons_append, List.cons_prefix_cons] at h
        exact absurd (by simp [h.1]) ha
    · exact ih (fun hy => ha (List.mem_cons_of_mem c hy)) h

/-- Where a pair is the first of a text and stands nowhere behind it, the rest is determined. -/
theorem eq_of_append_pair {x y : Char} (hxy : x ≠ y) {pre lead u v : List Char} (hlead : y ∉ lead)
    (hv : ¬ [x, y] <:+: v) (h : pre ++ x :: y :: u = lead ++ x :: y :: v) : u = v := by
  rcases List.append_eq_append_iff.1 h with ⟨a, rfl, ha⟩ | ⟨a, rfl, ha⟩
  · -- the pair of the left side would begin inside of `lead`
    match a, ha with
    | [], ha => simpa using ha
    | [c], ha =>
      simp only [List.cons_append, List.nil_append, List.cons.injEq] at ha
      exact absurd ha.2.1.symm hxy
    | c :: d :: a, ha =>
      simp only [List.cons_append, List.cons.injEq] at ha
      exact absurd (by simp [ha.2.1]) hlead
  · -- the pair of the left side would begin behind that of the right side
    match a, ha with
    | [], ha => simpa using ha.symm
    | [c], ha =>
      simp only [List.cons_append, List.nil_append, List.cons.injEq] at ha
      exact absurd ha.2.1.symm hxy
    | c :: d :: a, ha =>
      simp only [List.cons_append, List.cons.injEq] at ha
      exact absurd ⟨a, u, by simp [ha.2.2]⟩ hv

/-! ## Generated values

The value is the marker of its service, fixed text, and a number. -/

theorem bracket_not_mem_natText (n : Nat) : '[' ∉ (Decimal.natText n).toList := by
  intro h
  rw [Decimal.natText, String.toList_ofList] at h
  have hdigit := Decimal.isDigit_of_mem_natDigits h
  simp at hdigit

namespace ResourceId

theorem WellNamed.open_not_mem {id : ResourceId} (h : id.WellNamed) :
    '[' ∉ id.serviceIdentity.toList := by
  simp [serviceIdentity, h.name_open, h.ns_open]

theorem WellNamed.close_not_mem {id : ResourceId} (h : id.WellNamed) :
    ']' ∉ id.serviceIdentity.toList := by
  simp [serviceIdentity, h.name_close, h.ns_close]

/-- The last dot of the identity ends the name, so the identity tells the service. -/
theorem WellNamed.eq_of_serviceIdentity_eq {s t : ResourceId} (hs : s.WellNamed) (ht : t.WellNamed)
    (h : s.serviceIdentity.toList = t.serviceIdentity.toList) : s = t := by
  -- read backwards, the identity is cut at its first dot
  have h : s.ns.toList.reverse ++ '.' :: s.name.toList.reverse
      = t.ns.toList.reverse ++ '.' :: t.name.toList.reverse := by
    simpa [serviceIdentity] using congrArg List.reverse h
  obtain ⟨hns, hname⟩ :=
    Text.append_cons_inj_of_first (by simpa using hs.ns_dot) (by simpa using ht.ns_dot) h
  cases s
  cases t
  simp_all [String.toList_inj]

end ResourceId

/-- What a generated value has behind the opening of its marker. -/
def valueTail (service : ResourceId) (n : Nat) : List Char :=
  service.serviceIdentity.toList ++
    ("]-User[none]-Id[".toList ++ ((Decimal.natText n).toList ++ [']']))

/-- A generated value from its opening on. -/
theorem toList_descriptorValue (service : ResourceId) (rule : Descriptor) :
    ∃ n, (descriptorValue service rule).toList = "Servic".toList
      ++ 'e' :: '[' :: valueTail service n := by
  refine ⟨(Digest.checksum (checksumInput service rule).toUTF8.toList).toNat, ?_⟩
  simp [descriptorValue, ResourceId.marker, valueTail]

/-- Behind the opening of its marker, a generated value has no further one. -/
theorem pair_not_infix_valueTail {service : ResourceId} (h : service.WellNamed) (n : Nat) :
    ¬ ['e', '['] <:+: valueTail service n := by
  intro hp
  -- pass over the identity, then the fixed text, then the number
  have hp := infix_of_infix_append h.open_not_mem (by simp) hp
  have hp : ['e', '['] <:+: (Decimal.natText n).toList ++ [']'] := by
    simpa [List.infix_cons_iff] using hp
  have hp := infix_of_infix_append (bracket_not_mem_natText n) (by simp) hp
  simp [List.infix_cons_iff] at hp

/-- A generated value carries the marker of its own service. -/
theorem GlobalDescriptor.GeneratedFor.belongsTo {d : GlobalDescriptor} {service : ResourceId}
    (h : d.GeneratedFor service) : d.belongsTo service = true := by
  obtain ⟨rule, h⟩ := h
  rw [GlobalDescriptor.belongsTo, Text.occurs_iff, h, descriptorValue]
  simp only [String.toList_append, List.append_assoc]
  exact (List.prefix_append _ _).isInfix

/-- **A generated value names one service.** The marker of a service stands in a value that was
generated for `t` exactly if the service is `t`. -/
theorem belongsTo_iff_of_generatedFor {d : GlobalDescriptor} {s t : ResourceId} (hs : s.WellNamed)
    (ht : t.WellNamed) (h : d.GeneratedFor t) : d.belongsTo s = true ↔ s = t := by
  constructor
  · intro hb
    obtain ⟨rule, hv⟩ := h
    obtain ⟨n, hn⟩ := toList_descriptorValue t rule
    rw [GlobalDescriptor.belongsTo, Text.occurs_iff, hv, hn] at hb
    obtain ⟨pre, post, hb⟩ := hb
    -- the marker of `s` can only stand where the marker of `t` does
    have htail : s.serviceIdentity.toList ++ ']' :: post = valueTail t n := by
      have hb : (pre ++ "Servic".toList) ++ 'e' :: '[' :: (s.serviceIdentity.toList ++ ']' :: post)
          = "Servic".toList ++ 'e' :: '[' :: valueTail t n := by
        simpa [ResourceId.marker] using hb
      exact eq_of_append_pair (by decide) (by decide) (pair_not_infix_valueTail ht n) hb
    -- and then the identities end at the same bracket
    have hid : s.serviceIdentity.toList = t.serviceIdentity.toList :=
      (Text.append_cons_inj_of_first hs.close_not_mem ht.close_not_mem htail).1
    exact hs.eq_of_serviceIdentity_eq ht hid
  · rintro rfl
    exact h.belongsTo

end MeshLimiter
