import MeshLimiter.Decimal.Integer
import MeshLimiter.Decimal.Literal
import Mathlib.Algebra.Group.Nat.Defs
import Mathlib.Data.List.TakeWhile
/-!
# Digits and literals

What the digits of a number stand for, and which texts of digits are literals.

* **`Decimal.digitsValue_natDigits`**, **`Decimal.digitsValue_paddedText`**: the digits of a number
  have its value, with zeros in front or without;
* **`Decimal.Literal.read?_digits`**, **`Decimal.Literal.read?_point`**: digits are a literal, with
  a point among them or without.
-/

namespace MeshLimiter.Decimal

/-! ## The value of digits

Digits are read as in the library. -/

theorem digitsValue_eq (cs : List Char) : digitsValue cs = Nat.ofDigitChars 10 cs 0 := by
  rw [digitsValue, Nat.ofDigitChars_eq_foldl]
  simp only [Nat.mul_comm 10]
  rfl

theorem digitsValue_append (cs ds : List Char) :
    digitsValue (cs ++ ds) = 10 ^ ds.length * digitsValue cs + digitsValue ds := by
  rw [digitsValue_eq, digitsValue_eq, digitsValue_eq, Nat.ofDigitChars_append,
    Nat.ofDigitChars_eq_ofDigitChars_zero]

theorem digitsValue_natDigits (n : Nat) : digitsValue (natDigits n) = n := by
  rw [digitsValue_eq, natDigits, Nat.ofDigitChars_ten_toDigits]

/-- Zeros in front of a number do not change it. -/
theorem digitsValue_paddedText (width n : Nat) : digitsValue (paddedText width n).toList = n := by
  rw [paddedText, String.toList_ofList, digitsValue_append, digitsValue_natDigits, digitsValue_eq,
    Nat.ofDigitChars_replicate_zero, Nat.mul_zero, Nat.mul_zero, Nat.zero_add]

theorem isDigit_of_mem_paddedText (width n : Nat) {c : Char} (h : c ∈ (paddedText width n).toList) :
    c.isDigit = true := by
  rw [paddedText, String.toList_ofList, List.mem_append] at h
  rcases h with h | h
  · rw [List.eq_of_mem_replicate h]
    rfl
  · exact isDigit_of_mem_natDigits h

/-- There is always room for the number. -/
theorem lt_pow_length_paddedText (width n : Nat) : n < 10 ^ (paddedText width n).toList.length := by
  have hdigits : n < 10 ^ (natDigits n).length :=
    (Nat.length_toDigits_le_iff (by decide) Nat.length_toDigits_pos).1 (Nat.le_refl _)
  refine Nat.lt_of_lt_of_le hdigits (Nat.pow_le_pow_right (by decide) ?_)
  rw [paddedText, String.toList_ofList, List.length_append]
  exact Nat.le_add_left _ _

/-- A number that fits takes up the width. -/
theorem length_paddedText {width n : Nat} (hwidth : 0 < width) (h : n < 10 ^ width) :
    (paddedText width n).toList.length = width := by
  have hle : (natDigits n).length ≤ width := (Nat.length_toDigits_le_iff (by decide) hwidth).2 h
  rw [paddedText, String.toList_ofList, List.length_append, List.length_replicate]
  omega

/-! ## Reading literals

Without an exponent a literal is its digits, and possibly a point. -/

/-- Digits with a point after the first few, of which there is one at least. -/
theorem Literal.read?_point {whole places : List Char} (hne : whole ≠ [])
    (hwhole : ∀ c ∈ whole, c.isDigit = true) (hplaces : ∀ c ∈ places, c.isDigit = true) :
    Literal.read? (whole ++ '.' :: places) = some ⟨whole ++ places, -places.length⟩ := by
  have htake : (whole ++ '.' :: places).takeWhile Char.isDigit = whole := by
    rw [List.takeWhile_append_of_pos hwhole, List.takeWhile_cons_of_neg (by decide),
      List.append_nil]
  have hdrop : (whole ++ '.' :: places).dropWhile Char.isDigit = '.' :: places := by
    rw [List.dropWhile_append_of_pos hwhole, List.dropWhile_cons_of_neg (by decide)]
  have hall : places.takeWhile Char.isDigit = places ∧ places.dropWhile Char.isDigit = [] :=
    ⟨List.takeWhile_eq_self_iff.2 hplaces, List.dropWhile_eq_nil_iff.2 hplaces⟩
  unfold Literal.read?
  simp [htake, hdrop, hall, hne, readScale?]

/-- Digits alone. -/
theorem Literal.read?_digits {whole : List Char} (hne : whole ≠ [])
    (hwhole : ∀ c ∈ whole, c.isDigit = true) : Literal.read? whole = some ⟨whole, 0⟩ := by
  have hall : whole.takeWhile Char.isDigit = whole ∧ whole.dropWhile Char.isDigit = [] :=
    ⟨List.takeWhile_eq_self_iff.2 hwhole, List.dropWhile_eq_nil_iff.2 hwhole⟩
  unfold Literal.read?
  simp [hall, hne, readScale?]

theorem natDigits_ne_nil (n : Nat) : natDigits n ≠ [] :=
  Nat.toDigits_ne_nil

end MeshLimiter.Decimal
