import Mathlib.Data.String.Basic
/-!
# The bytes of texts

Texts are compared character by character. Their encodings compare alike byte by byte: the encoding
of a character tells it from what could stand in its place, and grows with its number.

* **`Text.utf8EncodeChar_append_lt`**: how the encodings of two characters compare;
* **`Text.bytes_lt_bytes_iff`**: texts are in the order of their bytes.
-/

namespace MeshLimiter

namespace Text

variable {c d : Char} {cs ds : List Char} {s t : String}

/-- The bytes of a text. -/
def bytes (s : String) : List UInt8 :=
  s.toUTF8.data.toList

theorem bytes_eq (s : String) : bytes s = s.toList.flatMap String.utf8EncodeChar := by
  have hencode : s.toUTF8 = s.toList.utf8Encode := by
    rw [← String.toByteArray_ofList, String.ofList_toList]
    rfl
  rw [bytes, hencode, List.utf8Encode, List.data_toByteArray]

theorem char_toNat_lt (c : Char) : c.toNat < 1114112 := by
  rcases c.valid with h | ⟨-, h⟩
  · exact Nat.lt_trans h (by decide)
  · exact h

theorem ofNat_cons_lt_iff {m n : Nat} {xs ys : List UInt8} (hm : m < 256) (hn : n < 256) :
    UInt8.ofNat m :: xs < UInt8.ofNat n :: ys ↔ m < n ∨ m = n ∧ xs < ys := by
  rw [List.cons_lt_cons_iff, UInt8.ofNat_lt_iff_lt hm hn, ← UInt8.toNat_inj,
    UInt8.toNat_ofNat_of_lt' hm, UInt8.toNat_ofNat_of_lt' hn]

theorem utf8EncodeChar_ne_nil (c : Char) : String.utf8EncodeChar c ≠ [] :=
  List.length_pos_iff.1 (String.length_utf8EncodeChar c ▸ c.utf8Size_pos)

/-- The encodings of two characters compare like these, whatever follows. -/
theorem utf8EncodeChar_append_lt (h : c < d) (xs ys : List UInt8) :
    String.utf8EncodeChar c ++ xs < String.utf8EncodeChar d ++ ys := by
  have hlt : c.val.toNat < d.val.toNat := h
  have hbound : d.val.toNat < 1114112 := char_toNat_lt d
  -- a longer encoding has the larger first byte; of one length, the digits to base 64 decide
  have hdigits : ∀ n : Nat, n / 4096 = n / 64 / 64 ∧ n / 262144 = n / 64 / 64 / 64 := by omega
  simp only [String.utf8EncodeChar, (hdigits _).1, (hdigits _).2]
  generalize c.val.toNat = m at *
  generalize d.val.toNat = n at *
  split_ifs <;>
    simp (disch := omega) only [List.cons_append, List.nil_append, ofNat_cons_lt_iff] <;> omega

theorem bytes_lt_bytes (h : s < t) : bytes s < bytes t := by
  have hall : ∀ cs ds : List Char, cs < ds →
      cs.flatMap String.utf8EncodeChar < ds.flatMap String.utf8EncodeChar := by
    intro cs
    induction cs with
    | nil =>
      intro ds h
      obtain ⟨d, ds, rfl⟩ := List.exists_cons_of_ne_nil h.ne'
      rw [List.flatMap_cons]
      obtain ⟨b, bs, hd⟩ := List.exists_cons_of_ne_nil (utf8EncodeChar_ne_nil d)
      rw [hd]
      exact List.nil_lt_cons ..
    | cons c cs ih =>
      rintro (_ | ⟨d, ds⟩) h
      · exact absurd h (List.not_lt_nil _)
      · rw [List.flatMap_cons, List.flatMap_cons]
        rcases List.cons_lt_cons_iff.1 h with hcd | ⟨rfl, htail⟩
        · exact utf8EncodeChar_append_lt hcd _ _
        · exact List.append_left_lt (ih ds htail)
  rw [bytes_eq, bytes_eq]
  exact hall _ _ (String.lt_iff.1 h)

/-- **Texts are in the order of their bytes.** -/
theorem bytes_lt_bytes_iff : bytes s < bytes t ↔ s < t := by
  refine ⟨fun h => ?_, bytes_lt_bytes⟩
  rcases lt_trichotomy s t with hst | rfl | hts
  · exact hst
  · exact absurd h (List.lt_irrefl _)
  · exact absurd h (List.lt_asymm (bytes_lt_bytes hts))

end Text

end MeshLimiter
