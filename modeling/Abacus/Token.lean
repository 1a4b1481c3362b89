import Abacus.Operator
import Abacus.Decimal.Layout

/-!
# Tokens

The tokens an expression is made of: atoms, operators and parentheses.

Where two tokens stand side by side, what matters is whether the left one can
end an operand and whether the right one can start one. A sign starts an
operand too, but it does not count as a start here: after the end of an
operand a `+` or `-` is always the two-place operator, so the question never
comes up for a sign.

## Main definitions

* `Atom`: A number or one of the two constants.
* `Atom.value`: The double an atom stands for.
* `Token`: An atom, an operator or a parenthesis.
* `Token.endsOperand`: Whether an operand can end with the token.
* `Token.startsOperand`: Whether an operand can start with the token, signs
  not counted.
* `Token.opensSign`: Whether a `+` or `-` right after the token is a sign.
* `Token.label`: The spelling of a token in a list of tokens.

## Theorems

* `Token.opensSign_eq_not_endsOperand`, `Token.all_opensSign_eq_not`: A `+` or
  `-` is a sign exactly where no operand ends.
-/

namespace Abacus

/-- An operand without parts. -/
inductive Atom where
  | number (value : Float)
  | e
  | pi
  deriving DecidableEq, Inhabited

namespace Atom

/-- The double that an atom stands for. -/
def value : Atom → Float
  | number v => v
  | e => 2.718281828459045
  | pi => 3.141592653589793

/-- The spelling of an atom as a value. -/
def label : Atom → String
  | number v => numberLabel v
  | e => "e"
  | pi => "pi"

/-- Whether two atoms are the same, their numbers compared as numbers: the two
    zeros are the same and NaN differs from itself. -/
def same : Atom → Atom → Bool
  | number v, number w => v == w
  | e, e => true
  | pi, pi => true
  | _, _ => false

end Atom

/-- A token of an expression. -/
inductive Token where
  | atom (a : Atom)
  | op (o : Operator)
  | openParen
  | closeParen
  deriving DecidableEq, Inhabited

namespace Token

/-- Whether a token is an operand without parts. -/
def isAtom : Token → Bool
  | atom _ => true
  | _ => false

/-- Whether a token is an operator. -/
def isOp : Token → Bool
  | op _ => true
  | _ => false

/-- Whether a token is a sign. -/
def isUnary : Token → Bool
  | op o => o.isUnary
  | _ => false

/-- How tightly an operator binds; zero for all other tokens. -/
def precedence : Token → Nat
  | op o => o.precedence
  | _ => 0

/-- Whether a token is an operator whose chains group to the left. -/
def isLeftAssoc : Token → Bool
  | op o => o.isLeftAssoc
  | _ => false

/-- Whether a `+` or `-` right after the token is a sign. -/
def opensSign : Token → Bool
  | op _ => true
  | openParen => true
  | _ => false

/-- Whether an operand can end with the token. -/
def endsOperand : Token → Bool
  | atom _ => true
  | closeParen => true
  | _ => false

/-- Whether an operand can start with the token, signs not counted. -/
def startsOperand : Token → Bool
  | atom _ => true
  | openParen => true
  | _ => false

/-- The spelling of a token in a text, with numbers written as values. -/
def symbol : Token → String
  | atom a => a.label
  | op o => o.symbol
  | openParen => "("
  | closeParen => ")"

/-- The spelling of a token in a list of tokens, where signs are marked. -/
def label : Token → String
  | atom a => a.label
  | op o => o.label
  | openParen => "("
  | closeParen => ")"

/-- The name of a token's kind, and the value of a number. -/
def kindName : Token → String
  | atom (.number v) => "Number(" ++ numberLabel v ++ ")"
  | atom .e => "E"
  | atom .pi => "PI"
  | op (.unary .plus) => "UNARY_PLUS"
  | op (.unary .minus) => "UNARY_MINUS"
  | op (.binary .add) => "PLUS"
  | op (.binary .sub) => "MINUS"
  | op (.binary .mul) => "TIMES"
  | op (.binary .div) => "SLASH"
  | op (.binary .pow) => "POW"
  | openParen => "PAREN_OPEN"
  | closeParen => "PAREN_CLOSE"

/-- Whether two tokens are the same, their numbers compared as numbers. -/
def same : Token → Token → Bool
  | atom a, atom b => a.same b
  | op o, op p => o == p
  | openParen, openParen => true
  | closeParen, closeParen => true
  | _, _ => false

/-- Whether two token lists are the same, their numbers compared as
    numbers. -/
def sameList : List Token → List Token → Bool
  | [], [] => true
  | t :: ts, u :: us => t.same u && sameList ts us
  | _, _ => false

theorem opensSign_eq_not_endsOperand (t : Token) : t.opensSign = !t.endsOperand := by
  cases t <;> rfl

/-- The same of the token before, where at the start nothing ends. -/
theorem all_opensSign_eq_not (previous : Option Token) :
    previous.all opensSign = !previous.any endsOperand := by
  cases previous with
  | none => rfl
  | some t => exact opensSign_eq_not_endsOperand t

end Token

end Abacus
