import Abacus.Proofs.Double.Packing

/-!
# Products and Quotients of Doubles

The product and the quotient of two positive doubles are the doubles nearest to
the exact product and quotient. A product is rounded only downwards, so it
must have enough places to begin with; a quotient is computed to as many
places as are needed.

The unpacked doubles need not be such that there is a double of their parts,
since a decimal is read by multiplying or dividing numbers that are exact but
too long.

## Theorems

* `Double.mul_finite`: A product that is long enough is rounded to the nearest.
* `Double.div_finite`: A quotient is rounded to the nearest.
* `Double.normalize_natCast`: A natural number is rounded to the nearest.
* `Double.exists_parts_natCast`: A natural number below `2 ^ 53` is a double.
-/

namespace Abacus

open Float.Model Float.Model.UnpackedFloat

namespace Double

theorem mul_finite {m₁ m₂ : ℕ} {e₁ e₂ : ℤ} (h₁ : 0 < m₁) (h₂ : 0 < m₂)
    (hlong : 52 ≤ (m₁ * m₂).log2 ∨ e₁ + e₂ ≤ -1074) :
    UnpackedFloat.mul Format.binary64 (.finite .positive m₁ e₁ h₁) (.finite .positive m₂ e₂ h₂) =
      nearest (m₁ * 2 ^ e₁ * (m₂ * 2 ^ e₂)) := by
  have hq : (m₁ * 2 ^ e₁ * (m₂ * 2 ^ e₂) : ℚ) = (m₁ * m₂ : ℕ) * 2 ^ (e₁ + e₂) := by
    rw [zpow_add₀ two_ne_zero]
    push_cast
    ring
  have hm : m₁ * m₂ ≠ 0 := Nat.ne_of_gt (Nat.mul_pos h₁ h₂)
  have htwo : (0 : ℚ) < 2 ^ (e₁ + e₂) := zpow_pos two_pos _
  have hpos : (0 : ℚ) < (m₁ * m₂ : ℕ) := by exact_mod_cast Nat.pos_of_ne_zero hm
  rw [hq]
  refine roundWithAccuracy_eq_nearest (mul_pos hpos htwo) ?_ ?_
  · rw [mul_div_cancel_right₀ _ htwo.ne', extended_natCast]
  · rw [lastPlace_mul_zpow hm]
    omega

/-- A quotient has its first place where the places of its terms say, or one
    below. -/
theorem le_log_div {m₁ m₂ : ℕ} (h₁ : 0 < m₁) (h₂ : 0 < m₂) :
    (m₁.log2 : ℤ) - m₂.log2 - 1 ≤ Int.log 2 (m₁ / m₂ : ℚ) := by
  have hpos₁ : (0 : ℚ) < m₁ := by exact_mod_cast h₁
  have hpos₂ : (0 : ℚ) < m₂ := by exact_mod_cast h₂
  have hlow : (2 : ℚ) ^ (m₁.log2 : ℤ) ≤ m₁ := by
    exact_mod_cast Nat.log2_self_le (Nat.ne_of_gt h₁)
  have hhigh : (m₂ : ℚ) ≤ 2 ^ ((m₂.log2 : ℤ) + 1) := by
    exact_mod_cast (Nat.lt_log2_self (n := m₂)).le
  have hpow : (2 : ℚ) ^ ((m₁.log2 : ℤ) - m₂.log2 - 1) * 2 ^ ((m₂.log2 : ℤ) + 1) =
      2 ^ (m₁.log2 : ℤ) := by
    rw [← zpow_add₀ two_ne_zero]
    congr 1
    omega
  rw [← Int.zpow_le_iff_le_log one_lt_two (div_pos hpos₁ hpos₂), le_div_iff₀ hpos₂]
  calc ((2 : ℕ) : ℚ) ^ ((m₁.log2 : ℤ) - m₂.log2 - 1) * m₂
      ≤ 2 ^ ((m₁.log2 : ℤ) - m₂.log2 - 1) * 2 ^ ((m₂.log2 : ℤ) + 1) :=
        mul_le_mul_of_nonneg_left hhigh (zpow_pos two_pos _).le
    _ = 2 ^ (m₁.log2 : ℤ) := hpow
    _ ≤ m₁ := hlow

/-- The quotient is computed to the places of one that is no larger. -/
theorem div_finite {m₁ m₂ : ℕ} {e₁ e₂ : ℤ} (h₁ : 0 < m₁) (h₂ : 0 < m₂) :
    UnpackedFloat.div Format.binary64 (.finite .positive m₁ e₁ h₁) (.finite .positive m₂ e₂ h₂) =
      nearest (m₁ * 2 ^ e₁ / (m₂ * 2 ^ e₂)) := by
  have hpos₁ : (0 : ℚ) < m₁ := by exact_mod_cast h₁
  have hpos₂ : (0 : ℚ) < m₂ := by exact_mod_cast h₂
  have hq : (m₁ * 2 ^ e₁ / (m₂ * 2 ^ e₂) : ℚ) = m₁ / m₂ * 2 ^ (e₁ - e₂) := by
    rw [zpow_sub₀ two_ne_zero]
    field_simp
  -- The exponent at which the division cuts off.
  set t : ℤ := min (e₁ - e₂)
    (Format.binary64.targetExponent (totalExponent m₁ e₁ - totalExponent m₂ e₂)) with ht
  have hscale : (2 : ℚ) ^ (e₁ - e₂) = 2 ^ (e₁ - e₂ - t).toNat * 2 ^ t := by
    rw [← zpow_natCast, ← zpow_add₀ two_ne_zero]
    congr 1
    omega
  have hlog := le_log_div h₁ h₂
  rw [hq]
  refine roundWithAccuracy_eq_nearest (mul_pos (div_pos hpos₁ hpos₂) (zpow_pos two_pos _)) ?_ ?_
  · rw [← ht, ← extended_div _ h₂, Nat.shiftLeft_eq, hscale, ← mul_assoc,
      mul_div_cancel_right₀ _ (zpow_pos two_pos t).ne']
    congr 1
    push_cast
    ring
  · rw [lastPlace, log_mul_zpow (div_pos hpos₁ hpos₂)]
    rw [targetExponent_eq, totalExponent, totalExponent] at ht
    omega

theorem mul_ofParts {m₁ m₂ : ℕ} (e₁ e₂ : ℤ) (hlong : 0x10000000000000 ≤ m₂) :
    UnpackedFloat.mul Format.binary64 (ofParts m₁ e₁) (ofParts m₂ e₂) =
      nearest (m₁ * 2 ^ e₁ * (m₂ * 2 ^ e₂)) := by
  have h₂ : 0 < m₂ := by omega
  rw [ofParts_eq_finite rfl rfl h₂]
  by_cases hz : m₁ = 0
  · rw [hz, Nat.cast_zero, zero_mul, zero_mul, nearest_zero]
    rfl
  · have h₁ : 0 < m₁ := Nat.pos_of_ne_zero hz
    have hle : m₂ ≤ m₁ * m₂ := Nat.le_mul_of_pos_left _ h₁
    have hlog : 52 ≤ (m₁ * m₂).log2 :=
      (Nat.le_log2 (by omega)).mpr (show 2 ^ 52 ≤ m₁ * m₂ by omega)
    rw [ofParts_eq_finite rfl rfl h₁, mul_finite h₁ h₂ (Or.inl hlog)]

theorem div_ofParts {m₁ m₂ : ℕ} (e₁ e₂ : ℤ) (h₂ : 0 < m₂) :
    UnpackedFloat.div Format.binary64 (ofParts m₁ e₁) (ofParts m₂ e₂) =
      nearest (m₁ * 2 ^ e₁ / (m₂ * 2 ^ e₂)) := by
  rw [ofParts_eq_finite rfl rfl h₂]
  by_cases hz : m₁ = 0
  · rw [hz, Nat.cast_zero, zero_mul, zero_div, nearest_zero]
    rfl
  · have h₁ : 0 < m₁ := Nat.pos_of_ne_zero hz
    rw [ofParts_eq_finite rfl rfl h₁, div_finite h₁ h₂]

theorem normalize_natCast {n : ℕ} (hn : 0 < n) :
    UnpackedFloat.normalize Format.binary64 n 0 .positive = nearest n := by
  have hpos : (0 : ℚ) < n := by exact_mod_cast hn
  have hlast : lastPlace n = max ((n.log2 : ℤ) + 0 - 52) (-1074) := by
    rw [← lastPlace_mul_zpow (Nat.ne_of_gt hn), zpow_zero, mul_one]
  have hscale (k : ℕ) : (2 : ℚ) ^ (0 - (k : ℤ)) = (2 ^ k)⁻¹ := by
    rw [zero_sub, zpow_neg, zpow_natCast]
  rw [UnpackedFloat.normalize, Int.compare_eq_gt.mpr (by exact_mod_cast hn)]
  dsimp only
  rw [Int.toNat_natCast, UnpackedFloat.round, decreaseExponent]
  refine roundWithAccuracy_eq_nearest hpos ?_ ?_
  · rw [← extended_natCast, Nat.shiftLeft_eq, hscale, div_inv_eq_mul]
    push_cast
    rfl
  · rw [targetExponent_eq, totalExponent, hlast]
    omega

/-- A natural number below `2 ^ 53` is the number of a double. -/
theorem exists_parts_natCast {n : ℕ} (hn : n < 0x20000000000000) :
    ∃ (m : ℕ) (e : ℤ), Canonical m e ∧ e ≤ 0 ∧ (n : ℚ) = m * 2 ^ e := by
  by_cases hz : n = 0
  · exact ⟨0, -1074, ⟨by omega, le_refl _, Or.inr rfl⟩, by omega, by rw [hz]; simp⟩
  · have hlog : n.log2 ≤ 52 := by
      have := (Nat.log2_lt hz).mpr (show n < 2 ^ 53 from hn)
      omega
    have hlow := Nat.log2_self_le hz
    have hhigh := Nat.lt_log2_self (n := n)
    have hone : 0 < 2 ^ (52 - n.log2) := Nat.two_pow_pos _
    -- Shifted up until its first place is the first of the 53.
    refine ⟨n * 2 ^ (52 - n.log2), n.log2 - 52, ⟨?_, by omega, Or.inl ?_⟩, by omega, ?_⟩
    · calc n * 2 ^ (52 - n.log2) < 2 ^ (n.log2 + 1) * 2 ^ (52 - n.log2) :=
            Nat.mul_lt_mul_of_pos_right hhigh hone
        _ = 2 ^ 53 := by
          rw [← Nat.pow_add]
          congr 1
          omega
    · calc 2 ^ 52 = 2 ^ n.log2 * 2 ^ (52 - n.log2) := by
            rw [← Nat.pow_add]
            congr 1
            omega
        _ ≤ n * 2 ^ (52 - n.log2) := Nat.mul_le_mul_right _ hlow
    · have hexp : (n.log2 : ℤ) - 52 = -((52 - n.log2 : ℕ) : ℤ) := by omega
      rw [hexp, zpow_neg, zpow_natCast]
      push_cast
      rw [mul_assoc, mul_inv_cancel₀ (pow_pos two_pos _).ne', mul_one]

/-- A short natural number becomes the double of that number. -/
theorem exists_unpack_toFloat {n : ℕ} (hn : n < 0x20000000000000) :
    ∃ (m : ℕ) (e : ℤ), (n : ℚ) = m * 2 ^ e ∧ n.toUInt64.toFloat.toModel.unpack = ofParts m e := by
  rcases exists_parts_natCast hn with ⟨m, e, hcan, he, hvalue⟩
  have hnat : n.toUInt64.toNat = n := Nat.mod_eq_of_lt (show n < 2 ^ 64 by omega)
  have hround : UnpackedFloat.ofUInt64 Format.binary64 n.toUInt64 = ofParts m e := by
    rw [UnpackedFloat.ofUInt64, UnpackedFloat.ofNat, UnpackedFloat.ofInt, hnat,
      ← nearest_eq_ofParts hcan, ← hvalue]
    by_cases hz : n = 0
    · subst hz
      rw [Nat.cast_zero (R := ℚ), nearest_zero]
      rfl
    · exact normalize_natCast (Nat.pos_of_ne_zero hz)
  refine ⟨m, e, hvalue, ?_⟩
  change (Float.Model.pack (UnpackedFloat.ofUInt64 Format.binary64 n.toUInt64)).unpack = _
  rw [hround, unpack_pack_ofParts hcan (by omega)]

/-- The table of powers of ten has the powers up to the twenty-second. Each is
    the significand in its bits with at most 52 places behind the point. -/
theorem powersOfTen_bits (i : Fin 23) :
    let bits := (getElem Float.exactlyRepresentablePowersOfTen i.val i.isLt).toBits.toNat
    bits < 0x8000000000000000 ∧ bits / 0x10000000000000 ≠ 2047 ∧
      0x10000000000000 ≤ (parts bits).1 ∧ -52 ≤ (parts bits).2 ∧
        (parts bits).1 * 2 ^ ((parts bits).2 + 52).toNat = 10 ^ (i : ℕ) * 2 ^ 52 := by
  revert i
  decide +kernel

theorem powerOfTen_eq {i m : ℕ} {e : ℤ} (hlow : -52 ≤ e)
    (h : m * 2 ^ (e + 52).toNat = 10 ^ i * 2 ^ 52) : (10 : ℚ) ^ i = m * 2 ^ e := by
  obtain ⟨k, hk⟩ := Int.eq_ofNat_of_zero_le (show 0 ≤ e + 52 by omega)
  have he : e = (k : ℤ) - (52 : ℕ) := by omega
  have h' : (m : ℚ) * 2 ^ k = 10 ^ i * 2 ^ 52 := by
    rw [hk, Int.toNat_natCast] at h
    exact_mod_cast h
  rw [he, zpow_sub₀ two_ne_zero, zpow_natCast, zpow_natCast, ← mul_div_assoc, h',
    mul_div_cancel_right₀ _ (pow_pos two_pos 52).ne']

theorem exists_unpack_powerOfTen {i : ℕ} (hi : i < 23)
    (h : i < Float.exactlyRepresentablePowersOfTen.size) :
    ∃ (m : ℕ) (e : ℤ), 0x10000000000000 ≤ m ∧ (10 : ℚ) ^ i = m * 2 ^ e ∧
      Float.exactlyRepresentablePowersOfTen[i].toModel.unpack = ofParts m e := by
  rcases powersOfTen_bits ⟨i, hi⟩ with ⟨hsign, hfinite, hlong, hlow, hvalue⟩
  exact ⟨_, _, hlong, powerOfTen_eq hlow hvalue, unpack_eq_ofParts _ hsign hfinite⟩

end Double

end Abacus
