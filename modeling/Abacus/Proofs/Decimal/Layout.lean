import Abacus.Decimal.Layout
import Abacus.Lexeme.Spelling
import Abacus.Numeral
import Abacus.Proofs.Decimal.Shortest

/-!
# Plain Numbers Read Back

A decimal that is written with its point in place is a numeral, and the value
of that numeral is the double the decimal is read as. With a point behind the
first digits or before all of them the numeral spells the decimal itself; a
whole number is spelled with zeros in place of the exponent.

## Theorems

* `Numeral.value_whole`, `Numeral.value_pointed`: The value of a numeral by
  its digits.
* `Decimal.reads_positional`: The digits with the point in place are a numeral
  that is read as the decimal is.
* `exists_numeral`: The numbers that have a numeral.
* `reads_plainNumber`: The plain text of a number reads back as the number.
-/

namespace Abacus

theorem digitsValue_eq_ofDigitChars (ds : List Char) : digitsValue ds = Nat.ofDigitChars 10 ds 0 :=
  rfl

theorem digitsValue_zeros_append (n : ℤ) (ds : List Char) :
    digitsValue (zeros n ++ ds) = digitsValue ds := by
  rw [digitsValue_eq_ofDigitChars, zeros, Nat.ofDigitChars_append, Nat.ofDigitChars_replicate_zero,
    Nat.mul_zero]
  rfl

theorem digitsValue_append_zeros (n : ℤ) (ds : List Char) :
    digitsValue (ds ++ zeros n) = digitsValue ds * 10 ^ n.toNat := by
  rw [digitsValue_eq_ofDigitChars, zeros, Nat.ofDigitChars_append, Nat.ofDigitChars_replicate_zero,
    Nat.mul_comm]
  rfl

theorem isDigit_of_mem_zeros {n : ℤ} {c : Char} (hc : c ∈ zeros n) : c.isDigit = true := by
  rw [List.eq_of_mem_replicate hc]
  rfl

namespace Numeral

/-- The value of a numeral without a point. -/
theorem value_whole {ds : List Char} (hd : ∀ d ∈ ds, d.isDigit = true) :
    value ds = Decimal.toFloat ⟨digitsValue ds, 0⟩ := by
  have hfilter : ds.filter Char.isDigit = ds := List.filter_eq_self.mpr hd
  have hdrop : ds.dropWhile Char.isDigit = [] := by
    rw [← List.append_nil ds, List.dropWhile_append_of_pos hd, List.dropWhile_nil]
  rw [value, hfilter, hdrop]
  rfl

/-- The value of a numeral with a point. -/
theorem value_pointed {ds fs : List Char} (hd : ∀ d ∈ ds, d.isDigit = true)
    (hf : ∀ f ∈ fs, f.isDigit = true) :
    value (ds ++ '.' :: fs) = Decimal.toFloat ⟨digitsValue (ds ++ fs), -(fs.length : ℤ)⟩ := by
  have hpoint : ¬ ('.' : Char).isDigit = true := Bool.false_ne_true
  have hfilter : (ds ++ '.' :: fs).filter Char.isDigit = ds ++ fs := by
    rw [List.filter_append, List.filter_eq_self.mpr hd, List.filter_cons_of_neg hpoint,
      List.filter_eq_self.mpr hf]
  have hdrop : (ds ++ '.' :: fs).dropWhile Char.isDigit = '.' :: fs := by
    rw [List.dropWhile_append_of_pos hd, List.dropWhile_cons_of_neg hpoint]
  rw [value, hfilter, hdrop]
  rfl

end Numeral

namespace Decimal

theorem isDigit_of_mem_digits {d : Decimal} {c : Char} (hc : c ∈ d.digits) : c.isDigit = true :=
  Nat.isDigit_of_mem_toDigits (by omega) (by omega) hc

theorem digitsValue_digits (d : Decimal) : digitsValue d.digits = d.coefficient :=
  Nat.ofDigitChars_ten_toDigits

/-- A numeral is a reading of a decimal if its digits and places are. -/
theorem reads_pointed {d : Decimal} {ds fs : List Char} (hne : ds ≠ [] ∨ fs ≠ [])
    (hd : ∀ c ∈ ds, c.isDigit = true) (hf : ∀ c ∈ fs, c.isDigit = true)
    (hvalue : digitsValue (ds ++ fs) = d.coefficient) (hplaces : -(fs.length : ℤ) = d.exponent) :
    IsNumeral (ds ++ '.' :: fs) ∧ Numeral.value (ds ++ '.' :: fs) = d.toFloat := by
  refine ⟨.pointed hne hd hf, ?_⟩
  rw [Numeral.value_pointed hd hf, hvalue, hplaces]

theorem reads_whole {d : Decimal} {ds : List Char} (hne : ds ≠ [])
    (hd : ∀ c ∈ ds, c.isDigit = true) (hvalue : (digitsValue ds : ℚ) = d.toRat) :
    IsNumeral ds ∧ Numeral.value ds = d.toFloat := by
  refine ⟨.whole hne hd, ?_⟩
  rw [Numeral.value_whole hd]
  refine toFloat_congr ?_
  rw [← hvalue, toRat, zpow_zero, mul_one]

/-- The digits with the point in place are a numeral, which is read as the
    decimal is. -/
theorem reads_positional (d : Decimal) :
    IsNumeral (d.positional []) ∧ Numeral.value (d.positional []) = d.toFloat := by
  have hdigits : ∀ c ∈ d.digits, c.isDigit = true := fun c hc => isDigit_of_mem_digits hc
  have hzero : ∀ c ∈ ['0'], c.isDigit = true := by
    intro c hc
    rw [List.mem_singleton.mp hc]
    rfl
  have hmag : d.magnitude = d.digits.length + d.exponent := rfl
  rw [positional]
  by_cases hc : d.coefficient = 0
  · rw [if_pos hc]
    refine reads_whole (List.cons_ne_nil _ _) hzero ?_
    rw [toRat, hc, Nat.cast_zero, zero_mul]
    exact Nat.cast_zero
  rw [if_neg hc]
  by_cases hsmall : d.magnitude ≤ 0
  · -- The point stands before all digits, with zeros between.
    rw [if_pos hsmall]
    refine @reads_pointed d ['0'] (zeros (-d.magnitude) ++ d.digits)
      (Or.inl (List.cons_ne_nil _ _)) hzero ?_ ?_ ?_
    · intro c hc
      rcases List.mem_append.mp hc with hc | hc
      · exact isDigit_of_mem_zeros hc
      · exact hdigits c hc
    · change digitsValue (zeros 1 ++ _) = _
      rw [digitsValue_zeros_append, digitsValue_zeros_append, digitsValue_digits]
    · rw [List.length_append, zeros, List.length_replicate]
      omega
  rw [if_neg hsmall]
  by_cases hexp : d.exponent < 0
  · -- The point stands among the digits.
    rw [if_pos hexp]
    refine reads_pointed ?_ (fun c hc => hdigits c (List.mem_of_mem_take hc))
      (fun c hc => hdigits c (List.mem_of_mem_drop hc)) ?_ ?_
    · refine Or.inl fun hnil => ?_
      have hlen := congrArg List.length hnil
      rw [List.length_take, List.length_nil] at hlen
      omega
    · rw [List.take_append_drop, digitsValue_digits]
    · rw [List.length_drop]
      omega
  · -- No point is needed, and zeros fill up to the unit.
    rw [if_neg hexp, List.append_nil]
    refine reads_whole (List.append_ne_nil_of_left_ne_nil d.digits_ne_nil _) ?_ ?_
    · intro c hc
      rcases List.mem_append.mp hc with hc | hc
      · exact hdigits c hc
      · exact isDigit_of_mem_zeros hc
    · obtain ⟨n, hn⟩ := Int.eq_ofNat_of_zero_le (show 0 ≤ d.exponent by omega)
      rw [digitsValue_append_zeros, digitsValue_digits, toRat, hn, Int.toNat_natCast, zpow_natCast]
      push_cast
      rfl

end Decimal

/-- Every double without a sign bit has a numeral unless it is NaN. -/
theorem exists_numeral {v : Float} (hnan : v.isNaN = false) (hsign : hasSignBit v = false) :
    ∃ cs, IsNumeral cs ∧ Numeral.value cs = v := by
  rcases Decimal.exists_toFloat_eq hnan hsign with ⟨d, rfl⟩
  exact ⟨_, d.reads_positional⟩

/-- The plain text of a finite number without a sign bit is a numeral that
    reads back as the number. -/
theorem reads_plainNumber {v : Float} (hfinite : v.isFinite = true)
    (hsign : hasSignBit v = false) :
    IsNumeral (plainNumber v) ∧ Numeral.value (plainNumber v) = v := by
  rcases (Decimal.shortest v).reads_positional with ⟨hnumeral, hvalue⟩
  rw [plainNumber, if_pos hfinite, signed_of_nonneg hsign]
  exact ⟨hnumeral, hvalue.trans (Decimal.toFloat_shortest hfinite hsign)⟩

end Abacus
