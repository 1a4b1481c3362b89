import Abacus.Decimal

/-!
# The Shortest Decimal of a Double

Among the decimals that read back as a given double, the one with the fewest
digits, and of those the nearest.

A double is a fraction of two natural numbers, so everything here is exact.
For one digit, two digits and so on, the decimals with that many digits form
a grid, and only the two grid points around the double can be the nearest
that reads back: the decimals that read back as the double form an interval
around it. The first grid with such a point gives the answer. Seventeen
digits always suffice for a double, and the exact value, which reads back in
any case, stands behind them.

## Main definitions

* `hasSignBit`: Whether the sign bit of a double is set.
* `Fraction`: A fraction of two natural numbers.
* `Fraction.ofFloat`: The exact magnitude of a double.
* `Fraction.magnitude`: Where the point stands in the decimal expansion.
* `Fraction.onGrid`: The grid point next to a fraction that passes a test.
* `Decimal.shortest`: The shortest decimal that reads back.

## Theorems

* `Fraction.onGrid_passes`: A grid point that is found passes the test.
-/

namespace Abacus

/-- The bit of a double that holds its sign, as a number. -/
def signBit : Nat := 0x8000000000000000

/-- Whether the sign bit of a double is set, as it is for negative zero. -/
def hasSignBit (v : Float) : Bool :=
  signBit ≤ v.toBits.toNat

/-- The fraction `num / den`. -/
structure Fraction where
  num : Nat
  den : Nat
  deriving DecidableEq, Repr, Inhabited

namespace Fraction

/-- The exact magnitude of a finite double: 52 bits of a double hold the
    fraction of the significand, the eleven above them the exponent, and the
    lowest exponent drops the implicit leading bit. -/
def ofFloat (v : Float) : Fraction :=
  let leading := 0x10000000000000
  let bits := v.toBits.toNat % signBit
  let field := bits / leading
  let low := bits % leading
  let significand := if field = 0 then low else low + leading
  let scale := max field 1
  if scale < 1075 then ⟨significand, Nat.pow 2 (1075 - scale)⟩
  else ⟨significand * Nat.pow 2 (scale - 1075), 1⟩

/-- How many zeros follow the point of a fraction below one, looking at no
    more than `fuel` of them. -/
def zerosAfterPoint : Nat → Fraction → Nat
  | 0, _ => 0
  | fuel + 1, f =>
    if f.num * 10 < f.den then zerosAfterPoint fuel ⟨f.num * 10, f.den⟩ + 1 else 0

/-- The least `m` with the fraction below `10 ^ m`, for a fraction that is not
    zero. A zero after the point takes more than three bits of the
    denominator, which bounds their number. -/
def magnitude (f : Fraction) : Int :=
  if f.den ≤ f.num then (Nat.toDigits 10 (f.num / f.den)).length
  else -(zerosAfterPoint f.den.log2 f : Int)

/-- The fraction counted in units of `10 ^ exponent`. -/
def inUnits (f : Fraction) : Int → Fraction
  | .ofNat e => ⟨f.num, f.den * Nat.pow 10 e⟩
  | .negSucc e => ⟨f.num * Nat.pow 10 (e + 1), f.den⟩

/-- Of the two multiples of `10 ^ exponent` around a fraction, the one that
    passes a test, and the nearer if both do; an exact tie goes to the even
    multiple. -/
def onGrid (passes : Decimal → Bool) (f : Fraction) (exponent : Int) : Option Decimal :=
  let scaled := f.inUnits exponent
  let count := scaled.num / scaled.den
  let below : Decimal := ⟨count, exponent⟩
  let above : Decimal := ⟨count + 1, exponent⟩
  -- Twice the fraction and twice the middle, both scaled by the denominator, so
  -- that the comparison stays among natural numbers.
  let middle := (2 * count + 1) * scaled.den
  let belowFirst := 2 * scaled.num < middle || (2 * scaled.num == middle && count % 2 == 0)
  if belowFirst then [below, above].find? passes else [above, below].find? passes

/-- The exact decimal of a fraction whose denominator is a power of two. -/
def toDecimal (f : Fraction) : Decimal :=
  ⟨f.num * Nat.pow 5 f.den.log2, -(f.den.log2 : Int)⟩

theorem onGrid_passes {passes : Decimal → Bool} {f : Fraction} {e : Int} {d : Decimal}
    (h : f.onGrid passes e = some d) : passes d = true := by
  simp only [onGrid] at h
  split at h <;> exact List.find?_some h

end Fraction

namespace Decimal

/-- Whether a decimal reads back as the magnitude of a double, bit for bit. -/
def readsAs (v : Float) (d : Decimal) : Bool :=
  d.toFloat.toBits == v.abs.toBits

/-- The decimal with the fewest digits that reads back as the magnitude of a
    finite double, and of those the nearest. -/
def shortest (v : Float) : Decimal :=
  let exact := Fraction.ofFloat v
  if exact.num = 0 then ⟨0, 0⟩
  else
    -- From one digit to seventeen, each grid ten times finer than the last.
    let grids := (List.range 17).map fun n => exact.magnitude - (n + 1 : Nat)
    ((grids.findSome? (exact.onGrid (readsAs v))).getD exact.toDecimal).trim

end Decimal

end Abacus
