/-!
# Operators

The signs and the two-place operators of an arithmetic expression, with how
tightly each binds.

A sign binds tighter than a power, and `-2 ** 2` is the square of minus two.
Only the four school operations group to the left: a power groups to the
right, and a sign has no left operand that it could be grouped with.

## Main definitions

* `Sign`: The one-place operators.
* `BinOp`: The two-place operators.
* `Operator`: Either of them, as one occurrence in an expression.
* `Operator.precedence`: How tightly an operator binds, higher being tighter.
* `Operator.isLeftAssoc`: Whether a chain of the operator groups to the left.

## Theorems

* `Operator.precedence_pos`: Every operator binds tighter than none at all.
-/

namespace Abacus

/-- A one-place operator, written before its operand. -/
inductive Sign where
  | plus
  | minus
  deriving DecidableEq, Repr, Inhabited

/-- A two-place operator, written between its operands. -/
inductive BinOp where
  | add
  | sub
  | mul
  | div
  | pow
  deriving DecidableEq, Repr, Inhabited

/-- The spelling of a sign. -/
def Sign.symbol : Sign → String
  | plus => "+"
  | minus => "-"

/-- The spelling of a two-place operator. -/
def BinOp.symbol : BinOp → String
  | add => "+"
  | sub => "-"
  | mul => "*"
  | div => "/"
  | pow => "**"

/-- An operator as it occurs in an expression: the reading of a `+` or `-` as
    a sign or as a two-place operator is already decided. -/
inductive Operator where
  | unary (sign : Sign)
  | binary (op : BinOp)
  deriving DecidableEq, Repr, Inhabited

namespace Operator

/-- Whether an operator takes one operand only. -/
def isUnary : Operator → Bool
  | unary _ => true
  | binary _ => false

/-- How tightly an operator binds, higher being tighter. -/
def precedence : Operator → Nat
  | unary _ => 4
  | binary .pow => 3
  | binary .mul => 2
  | binary .div => 2
  | binary .add => 1
  | binary .sub => 1

/-- Whether a chain of the operator groups to the left, as in
    `(8 - 4) - 2`. -/
def isLeftAssoc : Operator → Bool
  | unary _ => false
  | binary .pow => false
  | binary _ => true

/-- The spelling of an operator in a text; a sign looks like the two-place
    operator of the same name. -/
def symbol : Operator → String
  | unary sign => sign.symbol
  | binary op => op.symbol

/-- A spelling that tells signs from two-place operators: a sign is marked
    by a `u`. -/
def label : Operator → String
  | unary sign => "u" ++ sign.symbol
  | binary op => op.symbol

theorem precedence_pos (o : Operator) : 0 < o.precedence := by
  rcases o with s | b
  · simp only [precedence, Nat.zero_lt_succ]
  · cases b <;> simp only [precedence, Nat.zero_lt_succ]

end Operator

end Abacus
