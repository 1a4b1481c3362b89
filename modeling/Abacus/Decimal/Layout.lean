import Abacus.Decimal.Shortest

/-!
# Number Texts

The two ways in which a double is written out. Both show the digits of
`Decimal.shortest`, so both read back; they differ in where the point goes.

The *label* of a number always shows that it is no whole number of some other
type: it has a point or an exponent. It is positional for numbers of ordinary
size and scientific beyond. The *plain* text of a number has no exponent ever
and a point only where digits follow it, because in an expression the letter
`e` is a constant of its own.

Neither text tells one NaN from another, and an infinity is written as a word.

## Main definitions

* `Decimal.positional`: The digits with the point in place.
* `Decimal.scientific`: One digit, the point, the other digits, the exponent.
* `plainNumber`: The text of a number inside an expression.
* `numberLabel`: The text of a number as a value of its own.

## Theorems

* `signed_of_nonneg`: Without a sign bit no sign is written.
-/

namespace Abacus

/-- A run of zeros. -/
def zeros (n : Int) : List Char :=
  List.replicate n.toNat '0'

namespace Decimal

/-- The digits with the point in place. Whole numbers end in `wholeMark`,
    which is the point and a zero where it must show, and nothing where it
    must not. -/
def positional (wholeMark : List Char) (d : Decimal) : List Char :=
  let ds := d.digits
  if d.coefficient = 0 then '0' :: wholeMark
  else if d.magnitude ≤ 0 then '0' :: '.' :: zeros (-d.magnitude) ++ ds
  else if d.exponent < 0 then
    ds.take d.magnitude.toNat ++ '.' :: ds.drop d.magnitude.toNat
  else ds ++ zeros d.exponent ++ wholeMark

/-- The digits of an exponent, at least two of them, with a sign in any
    case. -/
def exponentText (e : Int) : List Char :=
  let ds := Nat.toDigits 10 e.natAbs
  (if e < 0 then '-' else '+') :: (if ds.length < 2 then '0' :: ds else ds)

/-- One digit before the point, the others after it, then the exponent. -/
def scientific (d : Decimal) : List Char :=
  let fraction := d.digits.drop 1
  d.digits.take 1 ++ (if fraction.isEmpty then [] else '.' :: fraction) ++
    'e' :: exponentText (d.magnitude - 1)

end Decimal

/-- A magnitude with a minus in front if the sign bit is set. -/
def signed (v : Float) (magnitude : List Char) : List Char :=
  if hasSignBit v then '-' :: magnitude else magnitude

/-- The text of an infinity or of NaN, which has no sign. -/
def notFiniteText (v : Float) : List Char :=
  if v.isNaN then "nan".toList else signed v "inf".toList

/-- The text of a number inside an expression: positional, without an
    exponent, and with a point only where digits follow it. -/
def plainNumber (v : Float) : List Char :=
  if v.isFinite then signed v ((Decimal.shortest v).positional []) else notFiniteText v

/-- The text of a number as a value: positional from a ten thousandth up to
    sixteen digits before the point, scientific beyond. -/
def numberLabel (v : Float) : String :=
  String.ofList <|
    if v.isFinite then
      let d := Decimal.shortest v
      signed v <|
        if d.coefficient = 0 ∨ (-4 < d.magnitude ∧ d.magnitude ≤ 16) then
          d.positional ['.', '0']
        else d.scientific
    else notFiniteText v

theorem signed_of_nonneg {v : Float} (h : hasSignBit v = false) (cs : List Char) :
    signed v cs = cs := by
  simp only [signed, h, Bool.false_eq_true, if_false]

end Abacus
