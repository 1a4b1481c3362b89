import Mathlib

/-!
# The Nearest Double

The doubles of the logic are computed with: a product or a quotient is cut off
somewhere, and two bits keep what is needed of the rest to round it. Here the
result is said to be a function of the exact value alone. Whatever computation
leads to a positive rational number, it is rounded to `Double.nearest` of that
number.

The two bits are those of `Double.extended`, which cuts a rational number off
at the unit. Halving the number shifts the bits, so cutting off can be done in
one go or bit by bit; and a natural number or a fraction of two of them is cut
off right at the start.

## Main definitions

* `Double.extended`: A rational number cut off at the unit.
* `Double.lastPlace`: The exponent of the last place of the double nearest to a
  number.
* `Double.nearest`: The double nearest to a number, unpacked.

## Theorems

* `Double.shiftRight_extended`: Shifting is dividing.
* `Double.extended_natCast`, `Double.extended_div`: What is cut off of natural
  numbers and of their fractions.
* `Double.roundWithAccuracy_eq_nearest`: Rounding what is cut off early enough
  gives the nearest double.
-/

namespace Abacus

open Float.Model Float.Model.UnpackedFloat

namespace Double

/-- How far a number is above the unit it is cut off at, given what is cut
    off. -/
def accuracyOf (f : ℚ) : Accuracy :=
  if f = 0 then .exact else .inexact (compare f (1 / 2))

/-- A number cut off at the unit, with the bits that tell how to round it. -/
def extended (x : ℚ) : ExtendedMantissa :=
  .ofMantissaAndAccuracy ⌊x⌋₊ (accuracyOf (Int.fract x))

theorem extended_add (n : ℕ) {f : ℚ} (h0 : 0 ≤ f) (h1 : f < 1) :
    extended (n + f) = .ofMantissaAndAccuracy n (accuracyOf f) := by
  have hfloor : ⌊(n : ℚ) + f⌋₊ = n := by
    rw [Nat.floor_eq_iff (by positivity)]
    constructor <;> linarith
  have hfract : Int.fract ((n : ℚ) + f) = f := by
    rw [Int.fract_natCast_add, Int.fract_eq_self.mpr ⟨h0, h1⟩]
  rw [extended, hfloor, hfract]

theorem extended_natCast (n : ℕ) : extended n = .ofMantissaAndAccuracy n .exact := by
  have h := extended_add n (le_refl (0 : ℚ)) zero_lt_one
  rwa [add_zero] at h

theorem accuracyOf_of_lt {f : ℚ} (h0 : 0 < f) (h : f < 1 / 2) : accuracyOf f = .inexact .lt := by
  rw [accuracyOf, if_neg h0.ne', compare_lt_iff_lt.mpr h]

theorem accuracyOf_of_gt {f : ℚ} (h : 1 / 2 < f) : accuracyOf f = .inexact .gt := by
  rw [accuracyOf, if_neg (by linarith), compare_gt_iff_gt.mpr h]

theorem accuracyOf_half : accuracyOf (1 / 2) = .inexact .eq := by
  rw [accuracyOf, if_neg (by norm_num), compare_eq_iff_eq.mpr rfl]

theorem accuracyOf_div (n : ℕ) {d : ℕ} (hd : 0 < d) :
    accuracyOf (n / d) = accuracyOfFraction n d := by
  have hd' : (0 : ℚ) < d := by exact_mod_cast hd
  rw [accuracyOfFraction]
  by_cases hn : n = 0
  · rw [if_pos hn, hn, accuracyOf, if_pos (by simp)]
  · have hpos : (0 : ℚ) < n / d := by
      have : (0 : ℚ) < n := by exact_mod_cast Nat.pos_of_ne_zero hn
      positivity
    rw [if_neg hn]
    rcases lt_trichotomy (2 * n) d with h | h | h
    · have hq : (2 : ℚ) * n < d := by exact_mod_cast h
      rw [compare_lt_iff_lt.mpr h, accuracyOf_of_lt hpos]
      rw [div_lt_div_iff₀ hd' two_pos]
      linarith
    · have hq : (2 : ℚ) * n = d := by exact_mod_cast h
      have hhalf : (n : ℚ) / d = 1 / 2 := by
        rw [div_eq_div_iff hd'.ne' two_ne_zero]
        linarith
      rw [compare_eq_iff_eq.mpr h, hhalf, accuracyOf_half]
    · have hq : (d : ℚ) < 2 * n := by exact_mod_cast h
      rw [compare_gt_iff_gt.mpr h, accuracyOf_of_gt]
      rw [div_lt_div_iff₀ two_pos hd']
      linarith

theorem extended_div (m : ℕ) {d : ℕ} (hd : 0 < d) :
    extended (m / d) = .ofMantissaAndAccuracy (m / d) (accuracyOfFraction (m % d) d) := by
  have hd' : (0 : ℚ) < d := by exact_mod_cast hd
  have hmod : ((m % d : ℕ) : ℚ) < d := by exact_mod_cast Nat.mod_lt m hd
  have hm : (d : ℚ) * (m / d : ℕ) + (m % d : ℕ) = m := by exact_mod_cast Nat.div_add_mod m d
  have hsplit : (m : ℚ) / d = (m / d : ℕ) + (m % d : ℕ) / d := by
    field_simp
    linarith
  rw [hsplit, extended_add _ (by positivity) ((div_lt_one hd').mpr hmod), accuracyOf_div _ hd]

theorem mantissa_extended (x : ℚ) : (extended x).mantissa = ⌊x⌋₊ := by
  rw [extended]
  generalize accuracyOf (Int.fract x) = a
  rcases a with _ | o
  · rfl
  · cases o <;> rfl

/-- Half of a number is cut off one place above where the number is. What was
    the last place becomes the first of the two bits, and these become one. -/
theorem shiftRightOne_extended {x : ℚ} (hx : 0 ≤ x) :
    (extended x).shiftRightOne = extended (x / 2) := by
  have hfloor := Nat.floor_le hx
  have hlt := Nat.lt_floor_add_one x
  obtain ⟨n, f, rfl, h0, h1⟩ : ∃ (n : ℕ) (f : ℚ), x = n + f ∧ 0 ≤ f ∧ f < 1 :=
    ⟨⌊x⌋₊, x - ⌊x⌋₊, by ring, by linarith, by linarith⟩
  -- An exact number leaves no bit, and any other one leaves one.
  have hbits (o : Ordering) :
      (ExtendedMantissa.ofMantissaAndAccuracy n (.inexact o)).shiftRightOne =
        ⟨n / 2, n % 2 != 0, true⟩ := by
    cases o <;> rfl
  rw [extended_add n h0 h1]
  rcases Nat.even_or_odd' n with ⟨k, hk | hk⟩
  · -- The first bit stays zero, so what is cut off stays below a half.
    have hhalf : ((n : ℚ) + f) / 2 = (k : ℚ) + f / 2 := by
      rw [hk]
      push_cast
      ring
    have hdiv : n / 2 = k := by omega
    have hmod : n % 2 = 0 := by omega
    rw [hhalf, extended_add k (by linarith) (by linarith)]
    by_cases hf : f = 0
    · rw [accuracyOf, accuracyOf, if_pos hf, if_pos (by linarith)]
      simp [ExtendedMantissa.ofMantissaAndAccuracy, ExtendedMantissa.shiftRightOne, hdiv, hmod]
    · have hpos : 0 < f := lt_of_le_of_ne h0 (Ne.symm hf)
      rw [accuracyOf, if_neg hf, hbits, hdiv, hmod,
        accuracyOf_of_lt (by linarith) (by linarith)]
      rfl
  · -- The first bit becomes one: a half if nothing was cut off before, and
    -- more than a half if something was.
    have hhalf : ((n : ℚ) + f) / 2 = (k : ℚ) + (1 + f) / 2 := by
      rw [hk]
      push_cast
      ring
    have hdiv : n / 2 = k := by omega
    have hmod : n % 2 = 1 := by omega
    rw [hhalf, extended_add k (by linarith) (by linarith)]
    by_cases hf : f = 0
    · rw [accuracyOf, if_pos hf, hf, add_zero, accuracyOf_half]
      simp [ExtendedMantissa.ofMantissaAndAccuracy, ExtendedMantissa.shiftRightOne, hdiv, hmod]
    · have hpos : 0 < f := lt_of_le_of_ne h0 (Ne.symm hf)
      rw [accuracyOf, if_neg hf, hbits, hdiv, hmod, accuracyOf_of_gt (by linarith)]
      rfl

theorem shiftRight_extended {x : ℚ} (hx : 0 ≤ x) (n : ℕ) :
    extended x >>> n = extended (x / 2 ^ n) := by
  change n.repeat ExtendedMantissa.shiftRightOne (extended x) = _
  induction n with
  | zero => rw [pow_zero, div_one, Nat.repeat]
  | succ n ih =>
    rw [Nat.repeat, ih, shiftRightOne_extended (by positivity), pow_succ, div_div]

/-- The exponent of the last place of the double nearest to a positive number:
    53 places from the first one on, but none below the smallest double. -/
def lastPlace (q : ℚ) : ℤ :=
  max (Int.log 2 q - 52) (-1074)

theorem targetExponent_eq (t : ℤ) : Format.binary64.targetExponent t = max (t - 53) (-1074) := by
  simp only [Format.targetExponent, Format.mantissaBits, Format.minExponent]
  norm_num

/-- The positive double nearest to a positive number, an exact tie going to the
    even one. The exponent of an unpacked double has no bound above. -/
def nearest (q : ℚ) : UnpackedFloat :=
  let e := lastPlace q
  let m := (extended (q / 2 ^ e)).roundedMantissa
  if hm : m = 0 then .zero .positive
  else if m < 0x20000000000000 then .finite .positive m e (Nat.pos_of_ne_zero hm)
  else .finite .positive 0x10000000000000 (e + 1) (by decide)

theorem log_mul_zpow {x : ℚ} (hx : 0 < x) (e : ℤ) :
    Int.log 2 (x * 2 ^ e) = Int.log 2 x + e := by
  have htwo : (0 : ℚ) < 2 ^ e := zpow_pos two_pos e
  have hpos : 0 < x * 2 ^ e := mul_pos hx htwo
  have hle : (2 : ℚ) ^ Int.log 2 x ≤ x := by exact_mod_cast Int.zpow_log_le_self one_lt_two hx
  have hlt : x < (2 : ℚ) ^ (Int.log 2 x + 1) := by
    exact_mod_cast Int.lt_zpow_succ_log_self one_lt_two x
  have hlow : Int.log 2 x + e ≤ Int.log 2 (x * 2 ^ e) := by
    rw [← Int.zpow_le_iff_le_log one_lt_two hpos]
    push_cast
    rw [zpow_add₀ two_ne_zero]
    exact mul_le_mul_of_nonneg_right hle htwo.le
  have hhigh : Int.log 2 (x * 2 ^ e) < Int.log 2 x + e + 1 := by
    rw [← Int.lt_zpow_iff_log_lt one_lt_two hpos]
    push_cast
    rw [add_right_comm, zpow_add₀ two_ne_zero]
    exact mul_lt_mul_of_pos_right hlt htwo
  omega

/-- The last place of a number with a natural significand. -/
theorem lastPlace_mul_zpow {m : ℕ} (hm : m ≠ 0) (e : ℤ) :
    lastPlace (m * 2 ^ e) = max (m.log2 + e - 52) (-1074) := by
  have hpos : (0 : ℚ) < m := by exact_mod_cast Nat.pos_of_ne_zero hm
  rw [lastPlace, log_mul_zpow hpos, Int.log_natCast, ← Nat.log2_eq_log_two]

/-- A number that is cut off no later than it is rounded shows its last place:
    either it has a first place or it is below the smallest double. -/
theorem targetExponent_floor {q : ℚ} (hq : 0 < q) {e : ℤ} (he : e ≤ lastPlace q) :
    Format.binary64.targetExponent (totalExponent ⌊q / 2 ^ e⌋₊ e) = lastPlace q := by
  have htwo : (0 : ℚ) < 2 ^ e := zpow_pos two_pos e
  rw [targetExponent_eq, totalExponent]
  by_cases hm : ⌊q / 2 ^ e⌋₊ = 0
  · -- No place is left, so `lastPlace q` must be the one of the smallest double.
    have hlt : q < (2 : ℕ) ^ lastPlace q := by
      have hone : q / 2 ^ e < 1 := Nat.floor_eq_zero.mp hm
      have hle : (2 : ℚ) ^ e ≤ 2 ^ lastPlace q := zpow_le_zpow_right₀ one_le_two he
      rw [div_lt_one htwo] at hone
      push_cast
      linarith
    rw [Int.lt_zpow_iff_log_lt one_lt_two hq] at hlt
    rw [hm, Nat.log2_zero]
    rw [lastPlace] at hlt he ⊢
    omega
  · -- The first place is there, and cutting off does not move it.
    have hone : 1 ≤ q / 2 ^ e := by
      by_contra hc
      exact hm (Nat.floor_eq_zero.mpr (not_le.mp hc))
    have hlog : Int.log 2 q = Nat.log2 ⌊q / 2 ^ e⌋₊ + e := by
      rw [Nat.log2_eq_log_two, ← Int.log_of_one_le_right 2 hone, ← log_mul_zpow (by linarith) e,
        div_mul_cancel₀ _ htwo.ne']
    rw [lastPlace, hlog]
    omega

/-- Rounding goes up by one at most. -/
theorem roundedMantissa_bounds (em : ExtendedMantissa) :
    em.mantissa ≤ em.roundedMantissa ∧ em.roundedMantissa ≤ em.mantissa + 1 := by
  rcases em with ⟨m, r, s⟩
  cases r <;> cases s <;>
    simp only [ExtendedMantissa.roundedMantissa, ExtendedMantissa.accuracy,
      Accuracy.roundToNearestEven] <;>
    omega

/-- Cut off at its last place a number has 53 places at most, and rounding may
    add one more. -/
theorem roundedMantissa_lastPlace_le {q : ℚ} (hq : 0 < q) :
    (extended (q / 2 ^ lastPlace q)).roundedMantissa ≤ 0x20000000000000 := by
  have htwo : (0 : ℚ) < 2 ^ lastPlace q := zpow_pos two_pos _
  have hlog : q < 2 ^ (Int.log 2 q + 1) := by
    exact_mod_cast Int.lt_zpow_succ_log_self one_lt_two q
  have hle : (2 : ℚ) ^ (Int.log 2 q + 1) ≤ 2 ^ (53 + lastPlace q) := by
    refine zpow_le_zpow_right₀ one_le_two ?_
    rw [lastPlace]
    omega
  have hlt : q / 2 ^ lastPlace q < (0x20000000000000 : ℕ) := by
    rw [zpow_add₀ two_ne_zero 53] at hle
    rw [div_lt_iff₀ htwo]
    norm_num at hle ⊢
    linarith
  have hfloor := (Nat.floor_lt (by positivity)).mpr hlt
  have hround := (roundedMantissa_bounds (extended (q / 2 ^ lastPlace q))).2
  rw [mantissa_extended] at hround
  omega

/-- A number cut off no later than at its last place is cut off there by the
    first shift. -/
theorem shiftToTargetExponent_extended {q : ℚ} (hq : 0 < q) {m : ℕ} {e : ℤ} {acc : Accuracy}
    (hx : .ofMantissaAndAccuracy m acc = extended (q / 2 ^ e)) (he : e ≤ lastPlace q) :
    shiftToTargetExponent Format.binary64 m e acc =
      (extended (q / 2 ^ lastPlace q), lastPlace q) := by
  have hm : m = ⌊q / 2 ^ e⌋₊ := by
    rw [← mantissa_extended, ← hx]
    rcases acc with _ | o
    · rfl
    · cases o <;> rfl
  have hexp : e + ((lastPlace q - e).toNat : ℤ) = lastPlace q := by omega
  have hpow : (2 : ℚ) ^ lastPlace q = 2 ^ e * 2 ^ (lastPlace q - e).toNat := by
    rw [← zpow_natCast, ← zpow_add₀ two_ne_zero, hexp]
  have hpos : 0 ≤ q / 2 ^ e := div_nonneg hq.le (zpow_pos two_pos e).le
  rw [shiftToTargetExponent, shiftToExponent, hx, hm, targetExponent_floor hq he, hexp,
    shiftRight_extended hpos, div_div, ← hpow]

/-- A rounded number of at most 53 places is where it should be. -/
theorem shiftToTargetExponent_small {m : ℕ} {e : ℤ} (hm : m < 0x20000000000000)
    (he : -1074 ≤ e) :
    shiftToTargetExponent Format.binary64 m e .exact = (⟨m, false, false⟩, e) := by
  have hlog : m.log2 ≤ 52 := by
    by_cases hz : m = 0
    · rw [hz]
      decide
    · have := (Nat.log2_lt hz).mpr (show m < 2 ^ 53 from hm)
      omega
  have hshift : (Format.binary64.targetExponent (totalExponent m e) - e).toNat = 0 := by
    rw [targetExponent_eq, totalExponent]
    omega
  rw [shiftToTargetExponent, shiftToExponent, hshift, Int.natCast_zero, add_zero]
  rfl

/-- Where rounding has added a place, the number is shifted by it. -/
theorem shiftToTargetExponent_carry {e : ℤ} (he : -1074 ≤ e) :
    shiftToTargetExponent Format.binary64 0x20000000000000 e .exact =
      (⟨0x10000000000000, false, false⟩, e + 1) := by
  have hlog : Nat.log2 0x20000000000000 = 53 := by decide
  have hshift :
      (Format.binary64.targetExponent (totalExponent 0x20000000000000 e) - e).toNat = 1 := by
    rw [targetExponent_eq, totalExponent, hlog]
    omega
  rw [shiftToTargetExponent, shiftToExponent, hshift]
  rfl

/-- Rounding a positive number that is cut off no later than at its last place
    gives the double nearest to it. -/
theorem roundWithAccuracy_eq_nearest {q : ℚ} (hq : 0 < q) {m : ℕ} {e : ℤ} {acc : Accuracy}
    (hx : .ofMantissaAndAccuracy m acc = extended (q / 2 ^ e)) (he : e ≤ lastPlace q) :
    roundWithAccuracy Format.binary64 .positive m e acc = nearest q := by
  have hmin : -1074 ≤ lastPlace q := le_max_right _ _
  have hle := roundedMantissa_lastPlace_le hq
  rw [roundWithAccuracy, shiftToTargetExponent_extended hq hx he, nearest]
  dsimp only
  -- What is rounded is shifted again, but only a carry leaves it anything to do.
  generalize (extended (q / 2 ^ lastPlace q)).roundedMantissa = r at hle
  by_cases hlt : r < 0x20000000000000
  · simp only [shiftToTargetExponent_small hlt hmin, if_pos hlt]
  · have hr : r = 0x20000000000000 := by omega
    subst hr
    simp only [shiftToTargetExponent_carry hmin, if_neg hlt]
    rfl

/-- A number below half of the smallest double is rounded to zero. -/
theorem nearest_of_small {q : ℚ} (hq : 0 < q) (h : q < 2 ^ (-1075 : ℤ)) :
    nearest q = .zero .positive := by
  have hlog : Int.log 2 q < -1075 := by
    rw [← Int.lt_zpow_iff_log_lt one_lt_two hq]
    exact_mod_cast h
  have hlast : lastPlace q = -1074 := by
    rw [lastPlace]
    omega
  have hhalf : q / 2 ^ (-1074 : ℤ) < 1 / 2 := by
    have hpow : (2 : ℚ) ^ (-1075 : ℤ) = 1 / 2 * 2 ^ (-1074 : ℤ) := by
      rw [show (-1075 : ℤ) = -1 + -1074 by omega, zpow_add₀ two_ne_zero]
      norm_num
    rw [div_lt_iff₀ (zpow_pos two_pos _), ← hpow]
    exact h
  have hpos : 0 < q / 2 ^ (-1074 : ℤ) := div_pos hq (zpow_pos two_pos _)
  have hext := extended_add 0 hpos.le (by linarith)
  rw [Nat.cast_zero, zero_add, accuracyOf_of_lt hpos hhalf] at hext
  rw [nearest, hlast, hext]
  rfl

end Double

end Abacus
