import Abacus.Decimal
import Abacus.Proofs.Double.Arithmetic

/-!
# Decimals Are Read to the Nearest Double

A decimal is read in one of two ways. A short coefficient and a small exponent
are both doubles, and the product or quotient of these two is rounded once. In
all other cases the decimal is computed with as a whole, and exponents that
are out of all bounds are sorted out before. Each way ends at the double
nearest to the number that the decimal stands for. So how a number is spelled
makes no difference.

## Main definitions

* `Decimal.toRat`: The number that a decimal stands for.

## Theorems

* `Double.pack_ofScientific`: The computation with a whole decimal rounds to
  the nearest double.
* `Decimal.toFloat_eq_ofRat`: A decimal is read to the nearest double.
* `Decimal.toFloat_congr`: Decimals of the same number are read to the same
  double.
-/

namespace Abacus

open Float.Model Float.Model.UnpackedFloat

namespace Double

/-- A large power of ten is beyond all doubles. -/
theorem log_of_large {m : ℕ} {e : ℤ} (hm : 0 < m) (he : 2048 < e) :
    1024 ≤ Int.log 2 (m * 10 ^ e : ℚ) := by
  have hm' : (1 : ℚ) ≤ m := by exact_mod_cast hm
  obtain ⟨n, rfl⟩ := Int.eq_ofNat_of_zero_le (show 0 ≤ e by omega)
  have hpos : (0 : ℚ) < m * 10 ^ (n : ℤ) := mul_pos (by linarith) (zpow_pos (by norm_num) _)
  rw [← Int.zpow_le_iff_le_log one_lt_two hpos, zpow_natCast]
  calc ((2 : ℕ) : ℚ) ^ (1024 : ℤ) ≤ 2 ^ (n : ℤ) := by
        rw [Nat.cast_ofNat]
        exact zpow_le_zpow_right₀ one_le_two (by omega)
    _ = 2 ^ n := zpow_natCast _ _
    _ ≤ 10 ^ n := pow_le_pow_left₀ two_pos.le (by norm_num) n
    _ ≤ m * 10 ^ n := le_mul_of_one_le_left (by positivity) hm'

/-- A small power of ten takes every coefficient below the smallest double
    that has not as many bits to make up for it. -/
theorem lt_of_small {m : ℕ} {e : ℤ} (he : e < -(2048 + m.log2)) :
    (m * 10 ^ e : ℚ) < 2 ^ (-1075 : ℤ) := by
  obtain ⟨n, hn⟩ := Int.eq_ofNat_of_zero_le (show 0 ≤ -e by omega)
  have hlog : (m : ℚ) < 2 ^ (m.log2 + 1) := by exact_mod_cast Nat.lt_log2_self (n := m)
  have hten : ((10 : ℚ) ^ n)⁻¹ ≤ (2 ^ n)⁻¹ :=
    inv_anti₀ (pow_pos two_pos n) (pow_le_pow_left₀ two_pos.le (by norm_num) n)
  have he' : e = -(n : ℤ) := by omega
  rw [he', zpow_neg, zpow_natCast]
  calc (m : ℚ) * (10 ^ n)⁻¹ ≤ m * (2 ^ n)⁻¹ := mul_le_mul_of_nonneg_left hten (Nat.cast_nonneg m)
    _ < 2 ^ (m.log2 + 1) * (2 ^ n)⁻¹ :=
        mul_lt_mul_of_pos_right hlog (inv_pos.mpr (pow_pos two_pos n))
    _ = 2 ^ (((m.log2 + 1 : ℕ) : ℤ) - n) := by
        rw [zpow_sub₀ two_ne_zero, zpow_natCast, zpow_natCast, div_eq_mul_inv]
    _ ≤ 2 ^ (-1075 : ℤ) := zpow_le_zpow_right₀ one_le_two (by omega)

/-- Shifted by 53 places a product is long enough whatever its factors are. -/
theorem le_log2_shiftLeft_mul {m k : ℕ} (hm : 0 < m) (hk : 0 < k) :
    52 ≤ (m <<< 53 * k).log2 := by
  have hshift : 2 ^ 52 ≤ m <<< 53 := by
    rw [Nat.shiftLeft_eq]
    omega
  have hle : 2 ^ 52 ≤ m <<< 53 * k := hshift.trans (Nat.le_mul_of_pos_right _ hk)
  exact (Nat.le_log2 (by omega)).mpr hle

theorem mul_powerOfTen {m : ℕ} (hm : 0 < m) (n : ℕ) (h₁ : 0 < m <<< 53) (h₂ : 0 < 10 ^ n) :
    UnpackedFloat.mul Format.binary64 (.finite .positive (m <<< 53) (-(53 : ℕ)) h₁)
      (.finite .positive (10 ^ n) 0 h₂) = nearest (m * 10 ^ (n : ℤ)) := by
  rw [mul_finite h₁ h₂ (Or.inl (le_log2_shiftLeft_mul hm h₂))]
  congr 1
  rw [Nat.shiftLeft_eq, zpow_neg, zpow_natCast, zpow_natCast, zpow_zero, Nat.cast_mul,
    Nat.cast_pow, Nat.cast_pow, Nat.cast_ofNat, Nat.cast_ofNat, mul_one, mul_assoc (m : ℚ),
    mul_inv_cancel₀ (pow_pos two_pos 53).ne', mul_one]

theorem div_powerOfTen {m : ℕ} (hm : 0 < m) (n : ℕ) (h : 0 < 10 ^ n) :
    UnpackedFloat.div Format.binary64 (.finite .positive m 0 hm) (.finite .positive (10 ^ n) 0 h) =
      nearest (m * 10 ^ (-(n : ℤ))) := by
  rw [div_finite hm h]
  congr 1
  rw [zpow_neg, zpow_natCast, zpow_zero]
  push_cast
  rw [mul_one, mul_one, div_eq_mul_inv]

/-- The computation with a whole decimal rounds to the nearest double. -/
theorem pack_ofScientific (m : ℕ) (e : ℤ) :
    UnpackedFloat.pack Format.binary64 (UnpackedFloat.ofScientific Format.binary64 m e) =
      UnpackedFloat.pack Format.binary64 (nearest (m * 10 ^ e)) := by
  rw [UnpackedFloat.ofScientific]
  by_cases hm : m = 0
  · rw [dif_pos hm, hm, Nat.cast_zero, zero_mul, nearest_zero]
  have hpos : 0 < m := Nat.pos_of_ne_zero hm
  have hpos' : (0 : ℚ) < m := by exact_mod_cast hpos
  have hq : (0 : ℚ) < m * 10 ^ e := mul_pos hpos' (zpow_pos (by norm_num) _)
  rw [dif_neg hm]
  -- Exponents that are out of all bounds are not computed with.
  by_cases hlarge : 2048 < e
  · rw [if_pos (show e > 2 ^ 11 from hlarge), pack_nearest_of_large hq (log_of_large hpos hlarge)]
    rfl
  rw [if_neg (show ¬ e > 2 ^ 11 from hlarge)]
  by_cases hsmall : e < -(2048 + m.log2)
  · rw [if_pos (show e < -((2 ^ 11 : ℤ) + m.log2) from hsmall),
      nearest_of_small hq (lt_of_small hsmall)]
  rw [if_neg (show ¬ e < -((2 ^ 11 : ℤ) + m.log2) from hsmall)]
  congr 1
  by_cases he : 0 ≤ e
  · obtain ⟨n, rfl⟩ := Int.eq_ofNat_of_zero_le he
    rw [if_pos he]
    exact mul_powerOfTen hpos n _ _
  · obtain ⟨n, hn⟩ := Int.eq_ofNat_of_zero_le (show 0 ≤ -e by omega)
    have he' : e = -(n : ℤ) := by omega
    subst he'
    rw [if_neg he]
    simp only [neg_neg, Int.toNat_natCast]
    exact div_powerOfTen hpos n _

/-- A coefficient that is a double is divided by a power of ten that is one, or
    multiplied with it. -/
theorem ofScientific_eq_ofRat (m : ℕ) (n : ℕ) :
    Float.ofScientific m false n = ofRat (m * 10 ^ n) ∧
      Float.ofScientific m true n = ofRat (m / 10 ^ n) := by
  by_cases hshort : m < 0x20000000000000 ∧ n ≤ 22
  · -- Both are doubles, so only the product or the quotient is rounded.
    have hsize : n < Float.exactlyRepresentablePowersOfTen.size :=
      show n < 23 by omega
    rcases exists_unpack_toFloat hshort.1 with ⟨m₁, e₁, hm, hunpack₁⟩
    rcases exists_unpack_powerOfTen (show n < 23 by omega) hsize with
      ⟨m₂, e₂, hlong, hn, hunpack₂⟩
    have hmul := @mul_ofParts m₁ m₂ e₁ e₂ hlong
    have hdiv := @div_ofParts m₁ m₂ e₁ e₂ (by omega)
    rw [← hunpack₁, ← hunpack₂, ← hm, ← hn] at hmul hdiv
    have hfast : m < 2 ^ 53 ∧ n ≤ 22 := hshort
    constructor
    · rw [Float.ofScientific, dif_pos hfast]
      exact congrArg (fun u => Float.ofModel (.pack u)) hmul
    · rw [Float.ofScientific, dif_pos hfast]
      exact congrArg (fun u => Float.ofModel (.pack u)) hdiv
  · have hslow : ¬ (m < 2 ^ 53 ∧ n ≤ 22) := hshort
    constructor
    · rw [Float.ofScientific, dif_neg hslow, ← zpow_natCast]
      exact ofModel_pack_congr (pack_ofScientific m n)
    · rw [Float.ofScientific, dif_neg hslow, div_eq_mul_inv, ← zpow_natCast, ← zpow_neg]
      have hneg : Int.negOfNat n = -(n : ℤ) := by
        cases n <;> rfl
      rw [if_pos rfl, hneg]
      exact ofModel_pack_congr (pack_ofScientific m (-(n : ℤ)))

end Double

namespace Decimal

/-- The number that a decimal stands for. -/
def toRat (d : Decimal) : ℚ :=
  d.coefficient * 10 ^ d.exponent

/-- A decimal is read to the nearest double. -/
theorem toFloat_eq_ofRat (d : Decimal) : d.toFloat = Double.ofRat d.toRat := by
  rcases d with ⟨c, n | n⟩
  · have h := (Double.ofScientific_eq_ofRat c n).1
    rwa [← zpow_natCast] at h
  · have h := (Double.ofScientific_eq_ofRat c (n + 1)).2
    rwa [div_eq_mul_inv, ← zpow_natCast, ← zpow_neg] at h

/-- How a number is spelled makes no difference. -/
theorem toFloat_congr {d d' : Decimal} (h : d.toRat = d'.toRat) : d.toFloat = d'.toFloat := by
  rw [toFloat_eq_ofRat, toFloat_eq_ofRat, h]

end Decimal

end Abacus
