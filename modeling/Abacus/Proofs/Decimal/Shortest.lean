import Abacus.Decimal.Shortest
import Abacus.Proofs.Decimal.Reading

/-!
# The Shortest Decimal Reads Back

The decimal that is found for a finite double without a sign bit is read as
that double. A decimal from one of the grids has passed just this test, and
the exact decimal behind the grids stands for the number that the double has.
Taking the trailing zeros away changes the spelling only.

## Theorems

* `Decimal.toRat_trim`: Trailing zeros do not count.
* `Fraction.ofFloat_eq_value`: The exact magnitude of a double is the number
  that it has.
* `Fraction.toRat_toDecimal`: The exact decimal stands for the fraction.
* `Decimal.toFloat_shortest`: The shortest decimal reads back.
* `Decimal.hasSignBit_toFloat`, `Decimal.isNaN_toFloat`,
  `Decimal.exists_toFloat_eq`: The doubles that decimals are read as.
-/

namespace Abacus

theorem Decimal.toRat_trim (d : Decimal) : d.trim.toRat = d.toRat := by
  fun_induction Decimal.trim d with
  | case1 d h ih =>
    have hdiv : d.coefficient / 10 * 10 = d.coefficient := by omega
    have hcast : ((d.coefficient / 10 : ℕ) : ℚ) * 10 = d.coefficient := by exact_mod_cast hdiv
    rw [ih, toRat, toRat, ← hcast, zpow_add₀ (by norm_num), zpow_one]
    ring
  | case2 d h => rfl

namespace Fraction

theorem ofFloat_of_signClear {v : Float} (hsign : v.toBits.toNat < 0x8000000000000000) :
    ofFloat v =
      if (Double.parts v.toBits.toNat).2 < 0 then
        ⟨(Double.parts v.toBits.toNat).1, 2 ^ (-(Double.parts v.toBits.toNat).2).toNat⟩
      else
        ⟨(Double.parts v.toBits.toNat).1 * 2 ^ (Double.parts v.toBits.toNat).2.toNat, 1⟩ := by
  simp only [ofFloat, signBit, Nat.pow_eq, Nat.mod_eq_of_lt hsign]
  generalize v.toBits.toNat = bits
  rw [Double.parts]
  by_cases hz : bits / 0x10000000000000 = 0
  · have hlow : bits % 0x10000000000000 = bits := by omega
    rw [if_pos hz, if_pos hz, if_pos (by omega), if_pos (by omega), hz, hlow]
    have hscale : 1075 - max 0 1 = (-(-1074 : ℤ)).toNat := by omega
    rw [hscale]
  · have hmax : max (bits / 0x10000000000000) 1 = bits / 0x10000000000000 := by omega
    rw [if_neg hz, if_neg hz, hmax]
    generalize bits / 0x10000000000000 = field
    have hbelow : 1075 - field = (-((field : ℤ) - 1075)).toNat := by omega
    have habove : field - 1075 = ((field : ℤ) - 1075).toNat := by omega
    dsimp only
    rw [hbelow, habove]
    by_cases hscale : field < 1075
    · rw [if_pos hscale, if_pos (by omega)]
    · rw [if_neg hscale, if_neg (by omega)]

/-- The exact magnitude is the number that the double has. -/
theorem ofFloat_eq_value {v : Float} (hsign : v.toBits.toNat < 0x8000000000000000) :
    ((ofFloat v).num : ℚ) / (ofFloat v).den = Double.value v := by
  rw [ofFloat_of_signClear hsign, Double.value]
  generalize (Double.parts v.toBits.toNat).1 = m
  generalize (Double.parts v.toBits.toNat).2 = e
  by_cases he : e < 0
  · obtain ⟨k, hk⟩ := Int.eq_ofNat_of_zero_le (show 0 ≤ -e by omega)
    have he' : e = -(k : ℤ) := by omega
    rw [if_pos he, hk, he', zpow_neg, zpow_natCast, div_eq_mul_inv, Int.toNat_natCast]
    push_cast
    rfl
  · obtain ⟨k, rfl⟩ := Int.eq_ofNat_of_zero_le (show 0 ≤ e by omega)
    rw [if_neg he, zpow_natCast, Int.toNat_natCast]
    push_cast
    rw [div_one]

theorem exists_den_eq (v : Float) : ∃ k, (ofFloat v).den = 2 ^ k := by
  simp only [ofFloat]
  split
  · exact ⟨_, rfl⟩
  · exact ⟨0, rfl⟩

/-- A half is five tenths, so a power of two in the denominator becomes a power
    of ten. -/
theorem toRat_toDecimal {f : Fraction} {k : ℕ} (hden : f.den = 2 ^ k) :
    f.toDecimal.toRat = f.num / f.den := by
  have hten : (10 : ℚ) ^ k = 5 ^ k * 2 ^ k := by
    rw [← mul_pow]
    norm_num
  have hfive : (5 : ℚ) ^ k ≠ 0 := (pow_pos (by norm_num) k).ne'
  rw [toDecimal, Decimal.toRat, hden, Nat.log2_two_pow, Nat.pow_eq, zpow_neg, zpow_natCast, hten]
  push_cast
  field_simp

end Fraction

namespace Decimal

theorem abs_eq_self {v : Float} (hsign : v.toBits.toNat < 0x8000000000000000)
    (hfinite : v.toBits.toNat / 0x10000000000000 ≠ 2047) : v.abs = v := by
  have hparts := Double.unpack_eq_ofParts v.toModel hsign hfinite
  have hself := Double.eq_ofModel_pack hsign hfinite
  have habs (m : ℕ) (e : ℤ) : (Double.ofParts m e).abs = Double.ofParts m e := by
    rw [Double.ofParts]
    split <;> rfl
  change Float.ofModel (.pack v.toModel.unpack.abs) = v
  rw [hparts, habs]
  exact hself.symm

theorem toFloat_of_readsAs {v : Float} {d : Decimal} (habs : v.abs = v)
    (h : readsAs v d = true) : d.toFloat = v := by
  rw [readsAs, habs, beq_iff_eq] at h
  exact Float.toBits_inj.mp h

/-- The shortest decimal of a finite double without a sign bit is read as that
    double. -/
theorem toFloat_shortest {v : Float} (hfinite : v.isFinite = true) (hsign : hasSignBit v = false) :
    (shortest v).toFloat = v := by
  have hbits : v.toBits.toNat < 0x8000000000000000 := by
    rw [hasSignBit, decide_eq_false_iff_not, signBit] at hsign
    omega
  have hexp := Double.exponent_ne_of_isFinite hfinite
  have hvalue := Fraction.ofFloat_eq_value hbits
  have hself := Double.eq_ofRat_value hbits hexp
  rw [shortest]
  dsimp only
  split
  · next hzero =>
    -- Zero is written without looking at the grids.
    rw [toFloat_eq_ofRat, hself, ← hvalue, hzero, toRat]
    simp only [Nat.cast_zero, zero_mul, zero_div]
  · rw [toFloat_congr (toRat_trim _)]
    cases hgrid : List.findSome? _ _ with
    | some d =>
      -- A decimal from a grid has passed the test that it reads back.
      rcases List.exists_of_findSome?_eq_some hgrid with ⟨e, _, hd⟩
      exact toFloat_of_readsAs (abs_eq_self hbits hexp) (Fraction.onGrid_passes hd)
    | none =>
      rcases Fraction.exists_den_eq v with ⟨k, hk⟩
      rw [Option.getD_none, toFloat_eq_ofRat, Fraction.toRat_toDecimal hk, hvalue]
      exact hself.symm

/-- Reading a decimal never sets the sign bit. -/
theorem hasSignBit_toFloat (d : Decimal) : hasSignBit d.toFloat = false := by
  have hle := Double.toNat_toBits_ofRat_le d.toRat
  rw [toFloat_eq_ofRat, hasSignBit, decide_eq_false_iff_not, signBit]
  omega

/-- Reading a decimal never gives NaN. -/
theorem isNaN_toFloat (d : Decimal) : d.toFloat.isNaN = false := by
  rw [toFloat_eq_ofRat]
  exact Double.isNaN_eq_false_of_le (Double.toNat_toBits_ofRat_le d.toRat)

/-- Every double without a sign bit is read from some decimal unless it is NaN,
    infinity from one that is too large. -/
theorem exists_toFloat_eq {v : Float} (hnan : v.isNaN = false) (hsign : hasSignBit v = false) :
    ∃ d : Decimal, d.toFloat = v := by
  cases hfinite : v.isFinite with
  | true => exact ⟨shortest v, toFloat_shortest hfinite hsign⟩
  | false =>
    rw [hasSignBit, decide_eq_false_iff_not, signBit] at hsign
    have hlog := Double.log_of_large (m := 1) (e := 2049) Nat.one_pos (by omega)
    have hpos : (0 : ℚ) < (1 : ℕ) * 10 ^ (2049 : ℤ) := by positivity
    refine ⟨⟨1, 2049⟩, ?_⟩
    rw [toFloat_eq_ofRat, Double.eq_infinity (by omega) hfinite hnan]
    exact Double.ofRat_of_large hpos hlog

end Decimal

end Abacus
