import Abacus.Token

/-!
# Expressions

The tree of an expression: atoms at the leaves, signs and two-place operators
at the nodes. A tree has no missing parts by construction, and parentheses
leave no trace in it, since the shape says what they said.

A tree can be read off as tokens in three ways that are needed elsewhere: its
atoms from left to right, the operators of its nodes, and the postfix form,
which lists operands before their operator and determines the tree.

## Main definitions

* `Expr`: The tree of an expression.
* `Expr.atoms`: The leaves from left to right.
* `Expr.operators`: The operators of the nodes.
* `Expr.postfixTokens`: The tokens of the postfix form.
* `Expr.same`: Sameness of trees with numbers compared as numbers.
-/

namespace Abacus

/-- The tree of an expression. -/
inductive Expr where
  | leaf (a : Atom)
  | unary (sign : Sign) (operand : Expr)
  | binary (op : BinOp) (left right : Expr)
  deriving DecidableEq, Inhabited

namespace Expr

/-- The number of leaves and nodes. -/
def size : Expr → Nat
  | leaf _ => 1
  | unary _ x => x.size + 1
  | binary _ l r => l.size + r.size + 1

/-- The leaves from left to right. -/
def atoms : Expr → List Atom
  | leaf a => [a]
  | unary _ x => x.atoms
  | binary _ l r => l.atoms ++ r.atoms

/-- The operators of the nodes, each node after its operands. -/
def operators : Expr → List Operator
  | leaf _ => []
  | unary s x => x.operators ++ [.unary s]
  | binary o l r => l.operators ++ r.operators ++ [.binary o]

/-- The tokens of the postfix form in front of a list of tokens. -/
def postfixOnto (rest : List Token) : Expr → List Token
  | leaf a => .atom a :: rest
  | unary s x => x.postfixOnto (.op (.unary s) :: rest)
  | binary o l r => l.postfixOnto (r.postfixOnto (.op (.binary o) :: rest))

/-- The tokens of the postfix form, operands before their operator. -/
def postfixTokens (t : Expr) : List Token :=
  t.postfixOnto []

/-- Whether two trees are the same, their numbers compared as numbers: the two
    zeros are the same and NaN differs from itself. -/
def same : Expr → Expr → Bool
  | leaf a, leaf b => a.same b
  | unary s x, unary t y => s == t && x.same y
  | binary o l r, binary p m s => l.same m && o == p && r.same s
  | _, _ => false

end Expr

end Abacus
