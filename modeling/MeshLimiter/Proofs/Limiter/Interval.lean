import MeshLimiter.Compile.Plan
import MeshLimiter.Limiter.Interval
import MeshLimiter.Proofs.Decimal.Literal
import MeshLimiter.Text.Search
import Mathlib.Algebra.Order.Field.Rat
import Mathlib.Tactic.FieldSimp
import Mathlib.Tactic.Linarith
import Mathlib.Tactic.NormNum
import Mathlib.Tactic.Positivity
import Mathlib.Tactic.Ring
/-!
# What the text of a fill interval says

The text of an interval is a decimal number of seconds. Nanoseconds are written as the places after
the point, however many they are, while a span carries a billion of them into the seconds. So the
text says as long as the span is, up to a billion nanoseconds, and less from there on.

* **`Decimal.readSeconds?`**: a text as an exact number of seconds;
* **`FillInterval.text_cases`**: the text is the seconds, with the nanoseconds cut off at zeros
  behind a point;
* **`FillInterval.text_denotes_iff`**: when the text says what the span is.
-/

namespace MeshLimiter

/-! ## Exact decimal numbers

An interval is written as a decimal number. What that denotes is compared with the interval before
anything is rounded. -/

namespace Decimal

/-- The number that a literal stands for, before it is rounded. -/
def Literal.value (l : Literal) : ℚ :=
  digitsValue l.digits * 10 ^ l.exponent

/-- The number of seconds that a text gives: a decimal number, and the letter of the unit. -/
def readSeconds? (text : String) : Option ℚ := do
  let number ← Text.before? ['s'] text.toList
  return (← Literal.read? number).value

/-- The unit is taken off. -/
theorem before?_unit (number : List Char) : Text.before? ['s'] (number ++ ['s']) = some number := by
  rw [Text.before?, if_pos (List.isSuffixOf_iff_suffix.2 (List.suffix_append ..)),
    List.length_append, Nat.add_sub_cancel, List.take_left]

/-- Whole seconds are read back. -/
theorem readSeconds?_whole (secs : Nat) : readSeconds? (natText secs ++ "s") = some (secs : ℚ) := by
  have htext : (natText secs ++ "s").toList = natDigits secs ++ ['s'] := by
    rw [String.toList_append, natText, String.toList_ofList]
    rfl
  have hread := Literal.read?_digits (natDigits_ne_nil secs) fun c => isDigit_of_mem_natDigits
  unfold readSeconds?
  rw [htext, before?_unit]
  simp [hread, Literal.value, digitsValue_natDigits]

/-- Seconds with places are read as the sum of both, the places as a fraction of as many digits. -/
theorem readSeconds?_places (secs width n : Nat) :
    readSeconds? (natText secs ++ ("." ++ paddedText width n) ++ "s")
      = some (secs + n / 10 ^ (paddedText width n).toList.length : ℚ) := by
  have htext : (natText secs ++ ("." ++ paddedText width n) ++ "s").toList
      = natDigits secs ++ '.' :: (paddedText width n).toList ++ ['s'] := by
    rw [String.toList_append, String.toList_append, String.toList_append, natText,
      String.toList_ofList]
    rfl
  have hread := Literal.read?_point (natDigits_ne_nil secs) (fun c => isDigit_of_mem_natDigits)
    fun c => isDigit_of_mem_paddedText width n
  have hvalue : digitsValue (natDigits secs ++ (paddedText width n).toList)
      = 10 ^ (paddedText width n).toList.length * secs + n := by
    rw [digitsValue_append, digitsValue_natDigits, digitsValue_paddedText]
  unfold readSeconds?
  rw [htext, before?_unit]
  simp only [hread, Literal.value, hvalue, Option.bind_eq_bind, Option.bind_some,
    Option.pure_def, zpow_neg,
    zpow_natCast, Nat.cast_add, Nat.cast_mul, Nat.cast_pow, Nat.cast_ofNat]
  -- multiplied out by the power of ten, both sides are the same number
  congr 1
  field_simp

end Decimal

/-- A span as a number of seconds. -/
def Duration.inSeconds (d : Duration) : ℚ :=
  d.secs + d.nanos / 10 ^ 9

namespace FillInterval

open Decimal (natText paddedText readSeconds?)

variable {i : FillInterval}

/-- An interval that is not negative is a span, as long as its seconds and nanoseconds together. -/
theorem exists_duration (hseconds : 0 ≤ i.seconds) (hnanos : 0 ≤ i.nanos) :
    ∃ d, i.duration? = some d ∧
      d.inSeconds = i.seconds.toInt.toNat + i.nanos.toInt.toNat / 10 ^ 9 := by
  have hnot : ¬ (i.seconds < 0 ∨ i.nanos < 0) := by
    rw [Int64.lt_iff_toInt_lt, Int32.lt_iff_toInt_lt]
    rw [Int64.le_iff_toInt_le] at hseconds
    rw [Int32.le_iff_toInt_le] at hnanos
    omega
  refine ⟨_, if_neg (by simpa using hnot), ?_⟩
  -- what is carried and what is left make up the nanoseconds
  have hcarry :
      (10 ^ 9 * (i.nanos.toInt.toNat / Nat.pow 10 9 : ℕ) +
      (i.nanos.toInt.toNat % Nat.pow 10 9 : ℕ) : ℚ) = i.nanos.toInt.toNat := by
    exact_mod_cast Nat.div_add_mod i.nanos.toInt.toNat (Nat.pow 10 9)
  rw [Duration.inSeconds, Nat.cast_add, ← hcarry]
  ring

/-- **The text is the seconds**, with the nanoseconds behind a point up to their last places that
are not zero, three at a time. -/
theorem text_cases (hseconds : 0 ≤ i.seconds) (hnanos : 0 ≤ i.nanos) :
    i.nanos.toInt.toNat = 0 ∧ i.text = natText i.seconds.toInt.toNat ++ "s" ∨
      ∃ width n, 0 < width ∧ width ≤ 9 ∧ i.nanos.toInt.toNat = n * 10 ^ (9 - width) ∧
        i.text = natText i.seconds.toInt.toNat ++ ("." ++ paddedText width n) ++ "s" := by
  have hsecs : i.seconds.toInt = (i.seconds.toInt.toNat : ℤ) := by
    rw [Int64.le_iff_toInt_le] at hseconds
    exact (Int.toNat_of_nonneg hseconds).symm
  -- neither part is negative, so both are the texts of natural numbers
  have hnat : i.nanos.toInt.natAbs = i.nanos.toInt.toNat := by
    have hnonneg : 0 ≤ i.nanos.toInt := Int32.le_iff_toInt_le.1 hnanos
    omega
  have hwhole : Decimal.intText i.seconds.toInt = natText i.seconds.toInt.toNat := by
    rw [hsecs]
    rfl
  unfold text
  rw [hwhole, hnat]
  generalize i.nanos.toInt.toNat = nanos
  dsimp only
  split
  · next hzero =>
    rw [String.append_empty]
    exact .inl ⟨beq_iff_eq.1 hzero, rfl⟩
  right
  split
  · -- milliseconds divide evenly, so three places suffice
    next hmillis =>
    refine ⟨3, nanos / Nat.pow 10 6, by decide, by decide, ?_, rfl⟩
    exact (Nat.div_mul_cancel (Nat.dvd_of_mod_eq_zero (beq_iff_eq.1 hmillis))).symm
  split
  · next hmicros =>
    refine ⟨6, nanos / Nat.pow 10 3, by decide, by decide, ?_, rfl⟩
    exact (Nat.div_mul_cancel (Nat.dvd_of_mod_eq_zero (beq_iff_eq.1 hmicros))).symm
  · exact ⟨9, nanos, by decide, by decide, (Nat.mul_one nanos).symm, rfl⟩

/-- As places, the nanoseconds of less than a second are the part of a second that they are. -/
theorem places_eq {width n : Nat} (hpos : 0 < width) (hwidth : width ≤ 9)
    (h : n * 10 ^ (9 - width) < 10 ^ 9) :
    (n / 10 ^ (paddedText width n).toList.length : ℚ) = (n * 10 ^ (9 - width) : ℕ) / 10 ^ 9 := by
  have hpow : 10 ^ 9 = 10 ^ width * 10 ^ (9 - width) := by
    rw [← Nat.pow_add, Nat.add_sub_cancel' hwidth]
  have hfits : n < 10 ^ width := Nat.lt_of_mul_lt_mul_right (hpow ▸ h)
  have hpow' : (10 ^ 9 : ℚ) = 10 ^ width * 10 ^ (9 - width) := by
    exact_mod_cast hpow
  rw [Decimal.length_paddedText hpos hfits, hpow', Nat.cast_mul, Nat.cast_pow, Nat.cast_ofNat,
    mul_div_mul_right _ _ (by positivity)]

/-- Places are never as much as a second. -/
theorem places_lt_one (width n : Nat) : (n / 10 ^ (paddedText width n).toList.length : ℚ) < 1 := by
  rw [div_lt_one (by positivity)]
  exact_mod_cast Decimal.lt_pow_length_paddedText width n

/-- **The text of an interval says what the span is, up to a billion nanoseconds.** An interval that
is not negative is a span, and its text, which the bucket of every rule with the interval is given,
is read as a number of seconds. This is the length of the span exactly if the nanoseconds are less
than a billion. From there on it is less: the span carries a second or two, and the text leaves them
behind the point. -/
theorem text_denotes_iff (i : FillInterval) (hseconds : 0 ≤ i.seconds) (hnanos : 0 ≤ i.nanos) :
    ∃ d q, i.duration? = some d ∧ readSeconds? i.text = some q ∧
      (∀ r : Rule, r.action.fillInterval = i → r.localDescriptor.bucket.interval = i.text) ∧
      (q = d.inSeconds ↔ i.nanos < 1000000000) ∧ (q < d.inSeconds ↔ 1000000000 ≤ i.nanos) := by
  obtain ⟨d, hd, hlength⟩ := exists_duration hseconds hnanos
  have hnonneg : 0 ≤ i.nanos.toInt := Int32.le_iff_toInt_le.1 hnanos
  have hbound : i.nanos < 1000000000 ↔ i.nanos.toInt.toNat < 10 ^ 9 := by
    rw [Int32.lt_iff_toInt_lt]
    show i.nanos.toInt < 1000000000 ↔ _
    omega
  -- it is enough to know which of the two lengths is read
  suffices ∃ q, readSeconds? i.text = some q ∧ (i.nanos < 1000000000 → q = d.inSeconds) ∧
      (¬ i.nanos < 1000000000 → q < d.inSeconds) by
    obtain ⟨q, hq, heq, hlt⟩ := this
    refine ⟨d, q, hd, hq, fun r hr => by rw [← hr]; rfl, ⟨fun h => ?_, heq⟩, fun h => ?_,
      fun h => hlt (Int32.not_lt.2 h)⟩
    · by_contra hnot
      exact (hlt hnot).ne h
    · by_contra hnot
      exact h.ne (heq (Int32.not_le.1 hnot))
  rw [hlength, hbound]
  rcases text_cases hseconds hnanos with ⟨hzero, htext⟩ | ⟨width, n, hpos, hwidth, hn, htext⟩
  · refine ⟨_, by rw [htext, Decimal.readSeconds?_whole], fun _ => ?_, fun h => ?_⟩
    · rw [hzero]
      simp
    · rw [hzero] at h
      exact absurd (by decide) h
  · refine ⟨_, by rw [htext, Decimal.readSeconds?_places], fun h => ?_, fun h => ?_⟩
    · rw [hn] at h ⊢
      rw [places_eq hpos hwidth h]
    · have hone : (1 : ℚ) ≤ i.nanos.toInt.toNat / 10 ^ 9 := by
        rw [one_le_div (by positivity)]
        exact_mod_cast Nat.le_of_not_lt h
      have := places_lt_one width n
      linarith

/-- A minute and twenty milliseconds: the second zero behind the point is written. -/
theorem text_denotes_minute :
    let i : FillInterval := { seconds := 60, nanos := 20000000 }
    0 ≤ i.seconds ∧ 0 ≤ i.nanos ∧ i.text = "60.020s" ∧ i.duration? = some ⟨60, 20000000⟩ ∧
      readSeconds? i.text = some (Duration.inSeconds ⟨60, 20000000⟩) := by
  intro i
  have hduration : i.duration? = some ⟨60, 20000000⟩ := by decide
  obtain ⟨d, q, hd, hq, -, hexact, -⟩ := text_denotes_iff i (by decide) (by decide)
  obtain rfl : ⟨60, 20000000⟩ = d := Option.some.inj (hduration.symm.trans hd)
  exact ⟨by decide, by decide, by decide, hduration, by rw [hq, hexact.2 (by decide)]⟩

/-- A billion nanoseconds are a second, and are written as a tenth of one. -/
theorem exists_text_short :
    let i : FillInterval := { seconds := 0, nanos := 1000000000 }
    i.text = "0.1000s" ∧ i.duration? = some ⟨1, 0⟩ ∧ readSeconds? i.text = some (1 / 10) ∧
      Duration.inSeconds ⟨1, 0⟩ = 1 := by
  intro i
  have htext : i.text = natText 0 ++ ("." ++ paddedText 3 1000) ++ "s" := by decide
  have hlength : (paddedText 3 1000).toList.length = 4 := by decide
  refine ⟨by decide, by decide, ?_, ?_⟩
  · rw [htext, Decimal.readSeconds?_places, hlength]
    norm_num
  · norm_num [Duration.inSeconds]

end FillInterval

end MeshLimiter
