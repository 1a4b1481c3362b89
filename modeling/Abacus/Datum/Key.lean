import Abacus.Datum

/-!
# Keys

When two scalars are the same key of a mapping. Numbers of any kind are compared
as numbers, truth values among them, and stamps as moments. All else is the same
key only if it is the same scalar, so a text is the key of no other text and of
no number.

## Main definitions

* `Scalar.amount?`: A scalar as a number.
* `Scalar.sameKey`: Whether two scalars are the same key.
* `Scalar.DifferentKeys`: No two keys of a list are the same.

## Theorems

* `Scalar.sameKey_text_left`, `Scalar.sameKey_text_right`: A text is a key of its
  own.
-/

namespace Abacus

/-- The whole number or the double that a scalar is as a number. -/
inductive Amount where
  | whole (n : Int)
  | broken (v : Float)

namespace Scalar

/-- A scalar as a number, if it is one. A double that is whole is the whole
    number. -/
def amount? : Scalar → Option Amount
  | bool b => some (.whole (if b then 1 else 0))
  | int n => some (.whole n)
  | float v =>
    let exact := Fraction.ofFloat v
    if v.isFinite && exact.num % exact.den == 0 then
      let magnitude : Int := exact.num / exact.den
      some (.whole (if hasSignBit v then -magnitude else magnitude))
    else some (.broken v)
  | _ => none

/-- Whether two scalars are the same key: numbers of any kind are compared as
    numbers and stamps as moments. -/
def sameKey (a b : Scalar) : Bool :=
  match a, b with
  | stamp s, stamp t => s.same t
  | a, b =>
    match a.amount?, b.amount? with
    | some (.whole m), some (.whole n) => m == n
    | some (.broken v), some (.broken w) => v == w
    | some _, some _ => false
    | _, _ => decide (a = b)

/-- No two keys of a list are the same. -/
def DifferentKeys (keys : List Scalar) : Prop :=
  keys.Pairwise fun a b => a.sameKey b = false

theorem sameKey_text_left {s : String} {k : Scalar} (h : text s ≠ k) :
    (text s).sameKey k = false := by
  cases k <;> exact decide_eq_false h

theorem sameKey_text_right {k : Scalar} {s : String} (h : k ≠ text s) :
    k.sameKey (text s) = false := by
  cases k with
  | float v =>
    -- As a number it is whole or not, and a text is neither.
    unfold sameKey
    dsimp only
    rcases (float v).amount? with _ | (n | w) <;> exact decide_eq_false h
  | _ => exact decide_eq_false h

end Scalar

end Abacus
