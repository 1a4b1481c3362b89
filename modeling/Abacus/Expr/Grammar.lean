import Abacus.Expr

/-!
# The Grammar of Expressions

Which lists of tokens are expressions, and of which tree, said by rules
instead of by stacks. The rules are layered by how tightly an operator binds:
a sum is made of products, a product of powers, a power of signed operands,
and a pair of parentheses makes an operand out of a sum.

A layer that groups to the left has itself on the left of its operator, and
the powers, which group to the right, have themselves on the right. Each layer
holds the next tighter one, so every operand is also a sum.

The relation says nothing about how a tree is found. It knows a token only by
its kind, so it also speaks about lists that no text has.

## Main definitions

* `Layer`: The five layers, from the loosest to the tightest.
* `Derives`: The tokens are of a layer and have a tree.

## Theorems

* `Derives.toSum`: What is of any layer is a sum.
-/

namespace Abacus

/-- How loosely the tokens of an expression may bind. -/
inductive Layer where
  | sum
  | product
  | power
  | signed
  | operand
  deriving DecidableEq, Repr, Inhabited

/-- The tokens make up an expression of the layer, and the tree is its
    tree. -/
inductive Derives : Layer → List Token → Expr → Prop where
  /-- An atom is an operand. -/
  | leaf (a : Atom) : Derives .operand [.atom a] (.leaf a)
  /-- A sum in parentheses is an operand, of the same tree. -/
  | parens {ts : List Token} {t : Expr} (h : Derives .sum ts t) :
    Derives .operand (.openParen :: ts ++ [.closeParen]) t
  /-- An operand needs no sign. -/
  | unsigned {ts : List Token} {t : Expr} (h : Derives .operand ts t) : Derives .signed ts t
  /-- A sign stands before what may have signs itself. -/
  | sign (s : Sign) {ts : List Token} {t : Expr} (h : Derives .signed ts t) :
    Derives .signed (.op (.unary s) :: ts) (.unary s t)
  /-- A signed operand is a power by itself. -/
  | base {ts : List Token} {t : Expr} (h : Derives .signed ts t) : Derives .power ts t
  /-- Powers group to the right. -/
  | pow {ls rs : List Token} {l r : Expr} (hl : Derives .signed ls l) (hr : Derives .power rs r) :
    Derives .power (ls ++ .op (.binary .pow) :: rs) (.binary .pow l r)
  /-- A power is a product by itself. -/
  | factor {ts : List Token} {t : Expr} (h : Derives .power ts t) : Derives .product ts t
  /-- Multiplications and divisions group to the left. -/
  | product {o : BinOp} (ho : o = .mul ∨ o = .div) {ls rs : List Token} {l r : Expr}
    (hl : Derives .product ls l) (hr : Derives .power rs r) :
    Derives .product (ls ++ .op (.binary o) :: rs) (.binary o l r)
  /-- A product is a sum by itself. -/
  | term {ts : List Token} {t : Expr} (h : Derives .product ts t) : Derives .sum ts t
  /-- Additions and subtractions group to the left. -/
  | sum {o : BinOp} (ho : o = .add ∨ o = .sub) {ls rs : List Token} {l r : Expr}
    (hl : Derives .sum ls l) (hr : Derives .product rs r) :
    Derives .sum (ls ++ .op (.binary o) :: rs) (.binary o l r)

/-- The atom that a token is, if it is one. -/
def Token.atom? : Token → Option Atom
  | atom a => some a
  | _ => none

namespace Derives

theorem toSum {layer : Layer} {ts : List Token} {t : Expr} (h : Derives layer ts t) :
    Derives .sum ts t := by
  cases layer with
  | sum => exact h
  | product => exact .term h
  | power => exact .term (.factor h)
  | signed => exact .term (.factor (.base h))
  | operand => exact .term (.factor (.base (.unsigned h)))

end Derives

end Abacus
