/-!
# Decimals

A decimal is a coefficient scaled by a power of ten. Every finite number text
of an expression is one, and so is every number that is written out: reading
and writing numbers go through this type, and only here does a decimal meet a
binary floating point number.

Reading rounds once, to the nearest double. A number of single precision is
read as a double first and then narrowed, so it is rounded twice; that is why
no reading into single precision is offered.

## Main definitions

* `Decimal`: A coefficient times a power of ten.
* `Decimal.toFloat`: The nearest double.
* `Decimal.trim`: The same value without trailing zeros in the coefficient.
* `Decimal.digits`: The decimal digits of the coefficient.
* `Decimal.magnitude`: Where the point stands, counted from the first digit.

## Theorems

* `Decimal.digits_ne_nil`: At least one digit is written.
-/

namespace Abacus

/-- The number `coefficient * 10 ^ exponent`. -/
structure Decimal where
  coefficient : Nat
  exponent : Int
  deriving DecidableEq, Repr, Inhabited

namespace Decimal

/-- The double nearest to a decimal, an exact tie going to the even one.
    Beyond the largest double the result is infinity. -/
def toFloat (d : Decimal) : Float :=
  match d.exponent with
  | .ofNat e => Float.ofScientific d.coefficient false e
  | .negSucc e => Float.ofScientific d.coefficient true (e + 1)

/-- The same value with no trailing zero in the coefficient, unless the value
    is zero. -/
def trim (d : Decimal) : Decimal :=
  if 0 < d.coefficient ∧ d.coefficient % 10 = 0 then
    trim ⟨d.coefficient / 10, d.exponent + 1⟩
  else d
termination_by d.coefficient
decreasing_by omega

/-- The decimal digits of the coefficient, most significant first. -/
def digits (d : Decimal) : List Char :=
  Nat.toDigits 10 d.coefficient

/-- The place of the point counted from before the first digit: the decimal
    with digits `abc` and magnitude `m` is `0.abc * 10 ^ m`. -/
def magnitude (d : Decimal) : Int :=
  d.digits.length + d.exponent

theorem digits_ne_nil (d : Decimal) : d.digits ≠ [] := by
  simp only [digits, ne_eq, ← List.length_eq_zero_iff]
  exact Nat.ne_of_gt (Nat.length_toDigits_pos)

end Decimal

end Abacus
