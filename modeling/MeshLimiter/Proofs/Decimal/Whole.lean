import Mathlib
import MeshLimiter.Decimal.Binary64
import MeshLimiter.Proofs.Decimal.Literal
/-!
# Whole numbers as doubles

A double that is cut to 64 bits gives a number whose digits, read as a literal, are that very number
again: it has a mantissa of 53 bits and zeros behind it, so it is a double itself; or it is the
largest number of 64 bits, which reads as the double above it and is cut again.

* **`Decimal.Cut`**, **`Decimal.cut_toUInt64`**: the numbers that doubles are cut to;
* **`Decimal.toUInt64_toFloat_natDigits`**: their digits read as them.
-/

namespace MeshLimiter.Decimal

open Float.Model (Format UnpackedFloat)
open Float.Model.UnpackedFloat

/-! ## Cutting a double

What is cut off has at most 53 digits to base two, since a double has no more. -/

/-- A number that a double is cut to: one with at most 53 digits to base two before its last zeros,
or the largest of 64 bits. -/
def Cut (n : Nat) : Prop :=
  (∃ m k, m < 2 ^ 53 ∧ n = m * 2 ^ k) ∨ n = 2 ^ 64 - 1

theorem Cut.of_lt {n : Nat} (h : n < 2 ^ 53) : Cut n :=
  .inl ⟨n, 0, h, by rw [Nat.pow_zero, Nat.mul_one]⟩

theorem mantissa_shiftRight (em : ExtendedMantissa) (k : Nat) :
    (em >>> k).mantissa = em.mantissa / 2 ^ k := by
  induction k with
  | zero => exact (Nat.div_one _).symm
  | succ k ih =>
    show (em >>> k).mantissa / 2 = _
    rw [ih, Nat.div_div_eq_div_mul, Nat.pow_succ]

/-- A number with an exponent is cut by shifting it. -/
theorem roundToInt_eq (sign : Sign) (m : Nat) (e : Int) :
    roundToInt sign m e = sign.apply (m * 2 ^ e.toNat / 2 ^ (-e).toNat : Nat) := by
  have hshift : (0 - (e - (e.toNat : Int))).toNat = (-e).toNat := by omega
  have hmantissa : ∀ m, (ExtendedMantissa.ofMantissaAndAccuracy m .exact).mantissa = m :=
    fun _ => rfl
  simp only [roundToInt, decreaseExponent, shiftToExponent, mantissa_shiftRight, hmantissa,
    Nat.shiftLeft_eq, Int.sub_zero, hshift]

/-- The mantissa of a double has at most 53 bits. -/
theorem mantissa_lt_of_unpack {b : BitVec Format.binary64.numBits} {sign : Sign} {m : Nat} {e : Int}
    {hm : 0 < m} (h : unpack Format.binary64 b = .finite sign m e hm) : m < 2 ^ 53 := by
  unfold unpack at h
  dsimp only at h
  split at h
  · split at h <;> cases h
  · split at h
    · split at h
      · cases h
      · cases h
        exact Nat.lt_trans (BitVec.isLt _) (by decide)
    · cases h
      exact BitVec.isLt (1#1 ++ unpackMantissa b)

theorem toNat_ofNatClamp (n : Nat) : (UInt64.ofNatClamp n).toNat = min n (2 ^ 64 - 1) := by
  unfold UInt64.ofNatClamp
  split
  · next h => exact (Nat.min_eq_left (Nat.le_sub_one_of_lt h)).symm
  · next h => exact (Nat.min_eq_right ((Nat.sub_le _ 1).trans (Nat.le_of_not_lt h))).symm

/-- **What a double is cut to.** -/
theorem cut_toUInt64 (x : Float) : Cut x.toUInt64.toNat := by
  have hcut : x.toUInt64.toNat = min (x.toModel.unpack.toInt 0 (UInt64.size - 1)).toNat
      (2 ^ 64 - 1) :=
    toNat_ofNatClamp _
  -- what is too large is cut to the largest word, which is a `Cut` by itself
  have hmin : ∀ n, Cut n → Cut (min n (2 ^ 64 - 1)) := by
    intro n hn
    rcases Nat.le_total n (2 ^ 64 - 1) with hle | hle
    · rwa [Nat.min_eq_left hle]
    · rw [Nat.min_eq_right hle]
      exact .inr rfl
  rw [hcut]
  refine hmin _ ?_
  cases hx : x.toModel.unpack with
  | notANumber => exact .of_lt (by decide)
  | infinity sign =>
    cases sign with
    | positive => exact .inr rfl
    | negative => exact .of_lt (by decide)
  | zero sign => exact .of_lt (show 0 < 2 ^ 53 by decide)
  | finite sign m e hm =>
    have hlt : m < 2 ^ 53 := mantissa_lt_of_unpack hx
    rw [toInt, roundToInt_eq]
    cases sign with
    | negative =>
      rw [Sign.apply, Int.toNat_neg_natCast]
      exact .of_lt (by decide)
    | positive =>
      rw [Sign.apply, Int.toNat_natCast]
      rcases Int.le_total 0 e with he | he
      · -- a large exponent shifts the mantissa
        rw [Int.toNat_of_nonpos (by omega : -e ≤ 0), Nat.pow_zero, Nat.div_one]
        exact .inl ⟨m, _, hlt, rfl⟩
      · -- a small one drops its last bits
        rw [Int.toNat_of_nonpos he, Nat.pow_zero, Nat.mul_one]
        exact .of_lt (Nat.lt_of_le_of_lt (Nat.div_le_self _ _) hlt)

/-! ## The fields of a double

A double is put together from its exponent and its fraction, and taken apart again. -/

section Fields

variable {e f : Nat}

/-- The bits of a double that is not below zero: its exponent, then its fraction. -/
theorem ofNat_eq_packComponents (he : e < 2 ^ 11) (hf : f < 2 ^ 52) :
    BitVec.ofNat 64 (e * 2 ^ 52 + f)
    = packComponents Format.binary64 .positive (BitVec.ofNat 11 e) (BitVec.ofNat 52 f) := by
  have hexponent : (BitVec.ofNat 11 e).toNat = e := Nat.mod_eq_of_lt he
  have hfraction : (BitVec.ofNat 52 f).toNat = f := Nat.mod_eq_of_lt hf
  apply BitVec.eq_of_toNat_eq
  show _ = (0#1 ++ BitVec.ofNat 11 e ++ BitVec.ofNat 52 f).toNat
  rw [BitVec.toNat_append, BitVec.toNat_append, hexponent, hfraction,
    ← Nat.shiftLeft_add_eq_or_of_lt hf, Nat.shiftLeft_eq, BitVec.toNat_ofNat]
  show (e * 2 ^ 52 + f) % 2 ^ 64 = (0 <<< 11 ||| e) * 2 ^ 52 + f
  rw [Nat.zero_shiftLeft, Nat.zero_or]
  omega

/-- The exponent of a normal double is not the one kept for what is no number. -/
theorem ofNat_ne_last (he : e < 2047) : BitVec.ofNat 11 e ≠ -1#11 := by
  intro h
  have hsame : e % 2 ^ 11 = 2047 := congrArg BitVec.toNat h
  omega

/-- A normal double, taken apart. -/
theorem unpack_packComponents (hpos : 0 < e) (he : e < 2047) (hf : f < 2 ^ 52) :
    unpack Format.binary64
        (packComponents Format.binary64 .positive (BitVec.ofNat 11 e) (BitVec.ofNat 52 f))
      = .finite .positive (2 ^ 52 + f) ((e : Int) - 1075) (by omega) := by
  have htoNat : (BitVec.ofNat 11 e).toNat = e := Nat.mod_eq_of_lt (by omega)
  -- an exponent other than zero means the leading bit is implicit
  have hfirst : BitVec.ofNat 11 e ≠ 0#11 := fun h => by
    have hsame := congrArg BitVec.toNat h
    rw [htoNat] at hsame
    exact absurd hsame (Nat.ne_of_gt hpos)
  have hmantissa : (1#1 ++ BitVec.ofNat 52 f).toNat = 2 ^ 52 + f := by
    rw [BitVec.toNat_append, BitVec.toNat_ofNat, BitVec.toNat_ofNat, Nat.mod_eq_of_lt hf,
      ← Nat.shiftLeft_add_eq_or_of_lt hf, Nat.shiftLeft_eq,
      Nat.mod_eq_of_lt (by decide : 1 < 2 ^ 1),
      Nat.one_mul]
  have hexponent : ((BitVec.ofNat 11 e).toNat : Int)
      - (Format.binary64.exponentBias + Format.binary64.mantissaBitsWithoutImplicit)
        = (e : Int) - 1075 := by
    rw [htoNat]
    rfl
  simp only [unpack, unpackMantissa_packComponents, unpackExponent_packComponents,
    unpackSign_packComponents, if_neg (ofNat_ne_last he), if_neg hfirst, hmantissa, hexponent]
  rfl

variable {n : Nat} (hpos : 0 < e) (he : e < 2047) (hf : f < 2 ^ 52) (hn : n = e * 2 ^ 52 + f)
include hpos he hf hn

/-- The bits of a normal double are its own. -/
theorem pack_unpack_ofNat :
    pack Format.binary64 (unpack Format.binary64 (BitVec.ofNat 64 n)) = BitVec.ofNat 64 n := by
  have hnumber : ¬ isNaNBits
      (packComponents Format.binary64 .positive (BitVec.ofNat 11 e) (BitVec.ofNat 52 f)) := by
    rw [isNaNBits, decide_eq_true_eq, unpackExponent_packComponents]
    exact fun h => ofNat_ne_last he h.1
  rw [hn, ofNat_eq_packComponents (by omega) hf, pack_unpack, if_neg hnumber]

theorem toBits_ofBits : (Float.ofBits (UInt64.ofNat n)).toBits = UInt64.ofNat n :=
  congrArg UInt64.ofBitVec (pack_unpack_ofNat hpos he hf hn)

theorem unpack_ofBits : (Float.ofBits (UInt64.ofNat n)).toModel.unpack
    = .finite .positive (2 ^ 52 + f) ((e : Int) - 1075) (by omega) := by
  show unpack Format.binary64 (pack Format.binary64 (unpack Format.binary64 (BitVec.ofNat 64 n)))
      = _
  have hunpack := unpack_packComponents hpos he hf
  rw [← ofNat_eq_packComponents (by omega) hf, ← hn] at hunpack
  rw [pack_unpack_ofNat hpos he hf hn]
  exact hunpack

theorem isFinite_ofBits : isFinite (Float.ofBits (UInt64.ofNat n)) = true := by
  have hbits : (UInt64.ofNat n).toNat = n := Nat.mod_eq_of_lt (by omega)
  have hexponent : n / Nat.pow 2 52 % Nat.pow 2 11 = e := by
    show n / 2 ^ 52 % 2 ^ 11 = e
    omega
  rw [isFinite, Binary64.ofFloat, toBits_ofBits hpos he hf hn, Binary64.ofBits]
  simp only [hbits, hexponent, beq_iff_eq, Nat.ne_of_lt he, Nat.ne_of_gt hpos, if_false]

theorem not_lt_zero_ofBits : ¬ Float.ofBits (UInt64.ofNat n) < 0.0 := by
  intro h
  have hlt : (Float.ofBits (UInt64.ofNat n)).toModel.unpack.lt
      (0.0 : Float).toModel.unpack = true :=
    of_decide_eq_true (p := (Float.ofBits (UInt64.ofNat n)).toModel < (0.0 : Float).toModel) h
  rw [unpack_ofBits hpos he hf hn] at hlt
  cases hlt

theorem toUInt64_ofBits : (Float.ofBits (UInt64.ofNat n)).toUInt64.toNat
    = min ((2 ^ 52 + f) * 2 ^ (e - 1075) / 2 ^ (1075 - e)) (2 ^ 64 - 1) := by
  have hcut : (Float.ofBits (UInt64.ofNat n)).toUInt64.toNat
      = min ((Float.ofBits (UInt64.ofNat n)).toModel.unpack.toInt 0 (UInt64.size - 1)).toNat
        (2 ^ 64 - 1) :=
    toNat_ofNatClamp _
  have hexponent : ((e : Int) - 1075).toNat = e - 1075 ∧
      (-((e : Int) - 1075)).toNat = 1075 - e := by omega
  rw [hcut, unpack_ofBits hpos he hf hn, toInt, roundToInt_eq, Sign.apply, Int.toNat_natCast,
    hexponent.1, hexponent.2]

end Fields

/-! ## The nearest double

A number with at most 53 digits to base two is a double, so it is the nearest to itself. -/

theorem roundedQuotient_mul {q den : Nat} (hden : 0 < den) : roundedQuotient (q * den) den = q := by
  have hbelow : q * den / den = q := Nat.mul_div_cancel q hden
  have hrest : q * den % den = 0 := Nat.mul_mod_left q den
  simp only [roundedQuotient, hbelow, hrest]
  rw [if_neg]
  simp only [Nat.mul_zero, Bool.or_eq_true, decide_eq_true_eq, Bool.and_eq_true]
  omega

section Nearest

variable {n : Nat} (hpos : 0 < n)
include hpos

/-- The bounds of a number by its leading digit, scaled to 53 digits. -/
theorem scaled_bounds : 2 ^ 52 * 2 ^ (n.log2 - 52) ≤ n * 2 ^ (52 - n.log2) ∧
    n * 2 ^ (52 - n.log2) < 2 ^ 53 * 2 ^ (n.log2 - 52) := by
  obtain ⟨hle, hlt⟩ := (Nat.log2_eq_iff (Nat.ne_of_gt hpos)).1 rfl
  have hlow : 2 ^ 52 * 2 ^ (n.log2 - 52) = 2 ^ n.log2 * 2 ^ (52 - n.log2) := by
    rw [← Nat.pow_add, ← Nat.pow_add]
    congr 1
    omega
  have hhigh : 2 ^ 53 * 2 ^ (n.log2 - 52) = 2 ^ (n.log2 + 1) * 2 ^ (52 - n.log2) := by
    rw [← Nat.pow_add, ← Nat.pow_add]
    congr 1
    omega
  rw [hlow, hhigh]
  exact ⟨Nat.mul_le_mul_right _ hle, Nat.mul_lt_mul_of_pos_right hlt (Nat.two_pow_pos _)⟩

theorem exponentOf_whole : exponentOf n 1 = (n.log2 : Int) - 52 := by
  obtain ⟨hle, -⟩ := (Nat.log2_eq_iff (Nat.ne_of_gt hpos)).1 rfl
  have hexponents : (-((n.log2 : Int) - Nat.log2 1 - 53)).toNat = 53 - n.log2 ∧
      ((n.log2 : Int) - Nat.log2 1 - 53).toNat = n.log2 - 53 := by
    rw [show Nat.log2 1 = 0 by decide]
    omega
  -- a whole number has all the bits it needs, so the exponent is not lowered
  have hlow : Nat.pow 2 53 * (1 * Nat.pow 2 (n.log2 - 53))
      = 2 ^ n.log2 * Nat.pow 2 (53 - n.log2) := by
    rw [Nat.one_mul]
    show 2 ^ 53 * 2 ^ (n.log2 - 53) = 2 ^ n.log2 * 2 ^ (53 - n.log2)
    rw [← Nat.pow_add, ← Nat.pow_add]
    congr 1
    omega
  have hfull : n * Nat.pow 2 (53 - n.log2) ≥ Nat.pow 2 53 * (1 * Nat.pow 2 (n.log2 - 53)) := by
    rw [hlow]
    exact Nat.mul_le_mul_right _ hle
  simp only [exponentOf, hexponents, if_pos hfull, leastExponent]
  rw [show Nat.log2 1 = 0 by decide]
  omega

/-- A number that a double is cut to, other than the largest, is a mantissa of 53 digits and an
exponent. -/
theorem Cut.exists_mantissa (hcut : Cut n) (hlt : n < 2 ^ 64 - 1) :
    ∃ m, 2 ^ 52 ≤ m ∧ m < 2 ^ 53 ∧ n * 2 ^ (52 - n.log2) = m * 2 ^ (n.log2 - 52) := by
  obtain ⟨hlow, hhigh⟩ := scaled_bounds hpos
  obtain ⟨hle, -⟩ := (Nat.log2_eq_iff (Nat.ne_of_gt hpos)).1 rfl
  have hdvd : 2 ^ (n.log2 - 52) ∣ n * 2 ^ (52 - n.log2) := by
    rcases hcut with ⟨m, k, hm, hn⟩ | rfl
    · -- with fewer zeros at its end the number could not reach its leading digit
      have hpow : 2 ^ n.log2 < 2 ^ (53 + k) := by
        calc 2 ^ n.log2 ≤ n := hle
          _ = m * 2 ^ k := hn
          _ < 2 ^ 53 * 2 ^ k := Nat.mul_lt_mul_of_pos_right hm (Nat.two_pow_pos k)
          _ = 2 ^ (53 + k) := (Nat.pow_add 2 53 k).symm
      have hzeros : n.log2 - 52 ≤ k := by
        have := (Nat.pow_lt_pow_iff_right (by decide)).1 hpow
        omega
      have hn' : 2 ^ k ∣ n := ⟨m, by rw [Nat.mul_comm]; exact hn⟩
      exact Nat.dvd_trans (Nat.dvd_trans (Nat.pow_dvd_pow 2 hzeros) hn') (Nat.dvd_mul_right ..)
    · exact absurd hlt (Nat.lt_irrefl _)
  obtain ⟨m, hm⟩ := hdvd
  rw [Nat.mul_comm _ m] at hm
  rw [hm] at hlow hhigh
  exact ⟨m, Nat.le_of_mul_le_mul_right hlow (Nat.two_pow_pos _),
    Nat.lt_of_mul_lt_mul_right hhigh, hm⟩

theorem nearestBits_whole {m : Nat} (hlog : n.log2 < 64) (hlow : 2 ^ 52 ≤ m) (hhigh : m < 2 ^ 53)
    (hm : n * 2 ^ (52 - n.log2) = m * 2 ^ (n.log2 - 52)) :
    nearestBits n 1 = (n.log2 + 1023) * 2 ^ 52 + (m - 2 ^ 52) := by
  have hexponents : (-((n.log2 : Int) - 52)).toNat = 52 - n.log2 ∧
      ((n.log2 : Int) - 52).toNat = n.log2 - 52 ∧
      ((n.log2 : Int) - 52 - leastExponent).toNat = n.log2 + 1022 := by
    rw [leastExponent]
    omega
  -- the division comes out even, so nothing is rounded
  have hmantissa : roundedQuotient (n * Nat.pow 2 (52 - n.log2))
      (1 * Nat.pow 2 (n.log2 - 52)) = m := by
    rw [Nat.one_mul]
    show roundedQuotient (n * 2 ^ (52 - n.log2)) (2 ^ (n.log2 - 52)) = m
    rw [hm]
    exact roundedQuotient_mul (Nat.two_pow_pos _)
  rw [nearestBits, if_neg (Nat.ne_of_gt hpos)]
  have hpow : Nat.pow 2 52 = 2 ^ 52 := rfl
  have hfinite : (n.log2 + 1022) * 2 ^ 52 + m ≤ 0x7FF * 2 ^ 52 := by omega
  simp only [exponentOf_whole hpos, hexponents, hmantissa, hpow]
  rw [Nat.min_eq_right hfinite]
  omega

end Nearest

/-- The largest number of 64 bits is nearest to a double that is cut to it. -/
theorem toUInt64_nearest_max : isFinite (nearest (2 ^ 64 - 1) 1) = true ∧
    ¬ nearest (2 ^ 64 - 1) 1 < 0.0 ∧ (nearest (2 ^ 64 - 1) 1).toUInt64.toNat = 2 ^ 64 - 1 := by
  decide +kernel

/-- **A number that a double is cut to is cut from the nearest double.** -/
theorem toUInt64_nearest {n : Nat} (hpos : 0 < n) (hle : n < 2 ^ 64) (hcut : Cut n) :
    isFinite (nearest n 1) = true ∧ ¬ nearest n 1 < 0.0 ∧ (nearest n 1).toUInt64.toNat = n := by
  rcases Nat.eq_or_lt_of_le (Nat.le_sub_one_of_lt hle) with rfl | hlt
  · exact toUInt64_nearest_max
  · obtain ⟨m, hlow, hhigh, hm⟩ := hcut.exists_mantissa hpos hlt
    have hlog : n.log2 < 64 := (Nat.log2_lt (Nat.ne_of_gt hpos)).2 hle
    have hbits := nearestBits_whole hpos hlog hlow hhigh hm
    have he : n.log2 + 1023 < 2047 := by omega
    have hf : m - 2 ^ 52 < 2 ^ 52 := by omega
    -- the mantissa, shifted back by the exponent, is the number again
    have hwhole : (2 ^ 52 + (m - 2 ^ 52)) * 2 ^ (n.log2 + 1023 - 1075) / 2 ^
        (1075 - (n.log2 + 1023)) = n := by
      have hexponents : n.log2 + 1023 - 1075 = n.log2 - 52 ∧
          1075 - (n.log2 + 1023) = 52 - n.log2 := by omega
      rw [Nat.add_sub_of_le hlow, hexponents.1, hexponents.2, ← hm,
        Nat.mul_div_cancel _ (Nat.two_pow_pos _)]
    refine ⟨isFinite_ofBits (by omega) he hf hbits, not_lt_zero_ofBits (by omega) he hf hbits, ?_⟩
    rw [nearest, toUInt64_ofBits (by omega) he hf hbits, hwhole,
      Nat.min_eq_left (Nat.le_sub_one_of_lt hle)]

/-! ## The digits of a number

They are read as a literal, with no zeros in front and no point. -/

theorem digitsValue_dropZeros (cs : List Char) :
    digitsValue (cs.dropWhile (· == '0')) = digitsValue cs := by
  induction cs with
  | nil => rfl
  | cons c cs ih =>
    rw [List.dropWhile_cons]
    split
    · next h =>
      rw [ih, beq_iff_eq.1 h]
      rfl
    · rfl

/-- The digits of a number above zero read as the nearest double. -/
theorem toFloat_natDigits {n : Nat} (hpos : 0 < n) (hle : n < 2 ^ 64) :
    Literal.toFloat ⟨natDigits n, 0⟩ = nearest n 1 := by
  have hvalue : digitsValue ((natDigits n).dropWhile (· == '0')) = n := by
    rw [digitsValue_dropZeros, digitsValue_natDigits]
  have hsome : ((natDigits n).dropWhile (· == '0')).isEmpty = false := by
    refine Bool.eq_false_iff.2 fun hempty => Nat.ne_of_gt hpos ?_
    rw [← hvalue, List.isEmpty_iff.1 hempty]
    rfl
  -- twenty digits at most, far from where a literal is taken for zero or infinity
  have hlength : ((natDigits n).dropWhile (· == '0')).length ≤ 20 := by
    have hdigits : (natDigits n).length ≤ 20 :=
      (Nat.length_toDigits_le_iff (by decide) (by decide)).2 (Nat.lt_trans hle (by decide))
    exact Nat.le_trans (List.dropWhile_suffix _).length_le hdigits
  have hlow : ¬ (0 : Int) + ((natDigits n).dropWhile (· == '0')).length < -330 := by omega
  have hhigh : ¬ (0 : Int) + ((natDigits n).dropWhile (· == '0')).length > 310 := by omega
  simp only [Literal.toFloat, hsome, hlow, hhigh, Bool.false_or, decide_false, if_false, hvalue,
    nearestScaled]
  rw [if_neg Bool.false_ne_true]
  show nearest (n * 1) 1 = nearest n 1
  rw [Nat.mul_one]

/-- **The digits of a number that a double is cut to read as a double that is cut to it.** -/
theorem toUInt64_toFloat_natDigits {n : Nat} (hle : n < 2 ^ 64) (hcut : Cut n) :
    isFinite (Literal.toFloat ⟨natDigits n, 0⟩) = true ∧ ¬ Literal.toFloat ⟨natDigits n, 0⟩ < 0.0 ∧
      (Literal.toFloat ⟨natDigits n, 0⟩).toUInt64.toNat = n := by
  rcases Nat.eq_zero_or_pos n with rfl | hpos
  · decide +kernel
  · rw [toFloat_natDigits hpos hle]
    exact toUInt64_nearest hpos hle hcut

end MeshLimiter.Decimal
