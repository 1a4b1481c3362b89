import Abacus.Decimal

/-!
# Numerals

The spelling of a number inside an expression: digits with at most one point
among, before or after them, and at least one digit. There is no sign and no
exponent, since a sign is an operator of its own and `e` is a constant.

A numeral is read by taking digits while there are any, then a point, then
digits again, so it always extends as far as the text allows. The only way to
fail is a point without a digit on either side.

## Main definitions

* `digitsValue`: The number that a run of digits stands for.
* `Numeral.split`: The numeral at the front of a text, and what follows it.
* `Numeral.value`: The double a numeral stands for.

## Theorems

* `Numeral.split_append`: The numeral and what follows it make up the text.
* `Numeral.split_ne_nil`: A numeral has at least one character.
-/

namespace Abacus

/-- The number that a run of decimal digits stands for. -/
def digitsValue (ds : List Char) : Nat :=
  ds.foldl (fun n d => 10 * n + (d.toNat - '0'.toNat)) 0

namespace Numeral

/-- The longest numeral at the front of a text and the text after it. There
    is none if the text starts with neither a digit nor a point that a digit
    follows. -/
def split (cs : List Char) : Option (List Char × List Char) :=
  let whole := cs.takeWhile Char.isDigit
  match cs.dropWhile Char.isDigit with
  | '.' :: rest =>
    -- A point belongs to the numeral even if no digit follows it.
    let fraction := rest.takeWhile Char.isDigit
    if whole = [] ∧ fraction = [] then none
    else some (whole ++ '.' :: fraction, rest.dropWhile Char.isDigit)
  | rest => if whole = [] then none else some (whole, rest)

/-- The double that a numeral stands for: its digits as one whole number,
    scaled by the number of digits after the point. -/
def value (spelling : List Char) : Float :=
  let digits := digitsValue (spelling.filter Char.isDigit)
  let places := (spelling.dropWhile Char.isDigit).length - 1
  Decimal.toFloat ⟨digits, -(places : Int)⟩

theorem split_append {cs s rest : List Char} (h : split cs = some (s, rest)) :
    s ++ rest = cs := by
  have hcs := List.takeWhile_append_dropWhile (p := Char.isDigit) (l := cs)
  simp only [split] at h
  split at h
  · next tail heq =>
    have htail := List.takeWhile_append_dropWhile (p := Char.isDigit) (l := tail)
    split at h
    · exact absurd h (by simp)
    · simp only [Option.some.injEq, Prod.mk.injEq] at h
      rw [← h.1, ← h.2, List.append_assoc, List.cons_append, htail, ← heq, hcs]
  · split at h
    · exact absurd h (by simp)
    · simp only [Option.some.injEq, Prod.mk.injEq] at h
      rw [← h.1, ← h.2, hcs]

theorem split_ne_nil {cs s rest : List Char} (h : split cs = some (s, rest)) : s ≠ [] := by
  simp only [split] at h
  split at h
  · split at h
    · exact absurd h (by simp)
    · simp only [Option.some.injEq, Prod.mk.injEq] at h
      rw [← h.1]
      exact fun hc => by simp at hc
  · split at h
    · exact absurd h (by simp)
    · next hw =>
      simp only [Option.some.injEq, Prod.mk.injEq] at h
      rw [← h.1]
      exact hw

end Numeral

end Abacus
