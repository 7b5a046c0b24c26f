import MeshLimiter.Proofs.Compile.Values
import MeshLimiter.Proofs.Registry.Marker
/-!
# What a checksum is taken of

The checksum of a rule is taken of the text of its descriptor, directly followed by the path of the
service. The text of the descriptor ends with its own brace, whatever the path begins with, and the
path is cut at its first slash. So the whole text tells the rule and the service, and two rules have
the same checksum only by a collision, also if they are for different services.

* **`Digest.Collide`**: two messages that are not the same and have the same checksum;
* **`lastBracketed_descriptorValue`**: the last brackets of a value hold the checksum;
* **`checksum_tells_rule_and_service`**: so rules with the same checksum are the same, or collide.
-/

namespace MeshLimiter

/-- Two messages that are not the same and have the same checksum. -/
def Digest.Collide (a b : List UInt8) : Prop :=
  a ≠ b ∧ checksum a = checksum b

/-! ## The text

It is made of the text of the descriptor and the path of the limiter, and tells both. -/

/-- The path of a resource tells the resource, if the namespace has no slash. -/
theorem ResourceId.path_inj {a b : ResourceId} (ha : '/' ∉ a.ns.toList) (hb : '/' ∉ b.ns.toList)
    (h : a.path = b.path) : a = b := by
  have hcut : a.ns.toList ++ '/' :: a.name.toList = b.ns.toList ++ '/' :: b.name.toList := by
    simpa [path] using congrArg String.toList h
  obtain ⟨hns, hname⟩ := Text.append_cons_inj_of_first ha hb hcut
  cases a
  cases b
  simp_all [String.toList_inj]

/-- A namespace with a slash may share its path with another. -/
example : (ResourceId.mk "a/b" "c").path = (ResourceId.mk "a" "b/c").path := by decide

variable {id id' : ResourceId} {d d' : Descriptor}

theorem checksumInput_inj (hid : '/' ∉ id.ns.toList) (hid' : '/' ∉ id'.ns.toList)
    (h : checksumInput id d = checksumInput id' d') : d = d' ∧ id = id' := by
  obtain ⟨hdescriptor, hpath⟩ := Descriptor.compact_toJson_append_inj h
  exact ⟨hdescriptor, ResourceId.path_inj hid hid' hpath⟩

/-- Messages with the same checksum are of the same rule, or collide. -/
theorem eq_or_collide_of_checksum_eq (hid : '/' ∉ id.ns.toList) (hid' : '/' ∉ id'.ns.toList)
    (h : Digest.checksum (checksumMessage id d) = Digest.checksum (checksumMessage id' d')) :
    (d = d' ∧ id = id') ∨ Digest.Collide (checksumMessage id d) (checksumMessage id' d') := by
  by_cases hmessage : checksumMessage id d = checksumMessage id' d'
  · have htext : checksumInput id d = checksumInput id' d' :=
      String.toByteArray_inj.1 (toList_byteArray_inj hmessage)
    exact .inl (checksumInput_inj hid hid' htext)
  · exact .inr ⟨hmessage, h⟩

/-! ## The value

The checksum stands between brackets at the end. -/

/-- What a text has from its last opening bracket on, less its last character. -/
def lastBracketed (value : String) : String :=
  String.ofList (value.toList.reverse.tail.takeWhile (· != '[')).reverse

/-- **The last brackets of a value hold the checksum** of its rule, whatever stands in the names
before. -/
theorem lastBracketed_descriptorValue (id : ResourceId) (d : Descriptor) :
    lastBracketed (descriptorValue id d)
      = Decimal.natText (Digest.checksum (checksumMessage id d)).toNat := by
  have hvalue : ∃ lead, (descriptorValue id d).toList
      = lead ++ '[' :: ((Decimal.natText (Digest.checksum (checksumMessage id d)).toNat).toList
        ++ [']']) := by
    refine ⟨id.marker.toList ++ "-User[none]-Id".toList, ?_⟩
    simp [descriptorValue, checksumMessage]
  obtain ⟨lead, hlead⟩ := hvalue
  have hdigits : ∀ c ∈ (Decimal.natText
      (Digest.checksum (checksumMessage id d)).toNat).toList.reverse, (c != '[') = true := by
    intro c hc
    refine bne_iff_ne.2 ?_
    rintro rfl
    exact bracket_not_mem_natText _ (List.mem_reverse.1 hc)
  rw [lastBracketed, hlead]
  simp only [List.reverse_append, List.reverse_cons, List.reverse_nil, List.nil_append,
    List.append_assoc, List.cons_append, List.tail_cons]
  rw [List.takeWhile_append_of_pos hdigits, List.takeWhile_cons_of_neg (by decide), List.append_nil,
    List.reverse_reverse, String.ofList_toList]

/-- **The checksum tells the rule and the service**, up to collisions. No two rules, of one service
or of two, have the same text to take it of; so if their checksums are the same, or the checksums
that stand in their values, the rules and services are the same or their texts collide. -/
theorem checksum_tells_rule_and_service (id id' : ResourceId) (d d' : Descriptor)
    (hid : '/' ∉ id.ns.toList) (hid' : '/' ∉ id'.ns.toList) :
    (d.toJson.compact ++ id.path = d'.toJson.compact ++ id'.path ↔ d = d' ∧ id = id') ∧
    (Digest.checksum (checksumMessage id d) = Digest.checksum (checksumMessage id' d') →
      (d = d' ∧ id = id') ∨ Digest.Collide (checksumMessage id d) (checksumMessage id' d')) ∧
    (lastBracketed (descriptorValue id d) = lastBracketed (descriptorValue id' d') →
      (d = d' ∧ id = id') ∨ Digest.Collide (checksumMessage id d) (checksumMessage id' d')) := by
  refine ⟨⟨checksumInput_inj hid hid', ?_⟩, eq_or_collide_of_checksum_eq hid hid', fun h => ?_⟩
  · rintro ⟨rfl, rfl⟩
    rfl
  · rw [lastBracketed_descriptorValue, lastBracketed_descriptorValue] at h
    exact eq_or_collide_of_checksum_eq hid hid' (UInt64.toNat_inj.1 (Decimal.natText_inj h))

/-- A rule that ends with what looks like the end of the text of a rule and the path of a
service. -/
def feignedDescriptor : Descriptor :=
  { customKey := some "\"\x7ddefault/reviews\\" }

/-- It is not taken for a rule without that text, of a service that goes on with it. -/
theorem checksum_tells_rule_and_service_feigned :
    '/' ∉ reviewsId.ns.toList ∧
    feignedDescriptor.toJson.compact ++ reviewsId.path
      ≠ ({} : Descriptor).toJson.compact ++ (ResourceId.mk "default" "reviews/\"\x7d").path ∧
    (lastBracketed (descriptorValue reviewsId feignedDescriptor)
        = lastBracketed (descriptorValue (ResourceId.mk "default" "reviews/\"\x7d") {}) →
      Digest.Collide (checksumMessage reviewsId feignedDescriptor)
        (checksumMessage (ResourceId.mk "default" "reviews/\"\x7d") {})) := by
  have hslash : '/' ∉ reviewsId.ns.toList := by decide
  obtain ⟨htext, -, hvalue⟩ := checksum_tells_rule_and_service reviewsId
    (ResourceId.mk "default" "reviews/\"\x7d") feignedDescriptor {} hslash (by decide)
  have hother : feignedDescriptor ≠ {} := by decide
  exact ⟨hslash, fun h => hother (htext.1 h).1, fun h => (hvalue h).resolve_left
    fun h => hother h.1⟩

end MeshLimiter
