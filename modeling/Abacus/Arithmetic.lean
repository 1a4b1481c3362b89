import Abacus.Operator

/-!
# Arithmetics

What an evaluation needs to know about numbers: how a double becomes a number,
and what the signs and the operators do. An evaluation never looks at a number
in any other way, so every step of it stays within one kind of number.

Two arithmetics are offered. Both follow the rules for binary floating point:
a division by zero is an infinity or NaN and not an error, and so is a power
without a real value.

## Main definitions

* `Arithmetic`: The operations on one kind of number.
* `Arithmetic.double`: Binary numbers of 64 bits.
* `Arithmetic.single`: Binary numbers of 32 bits.
* `Precision`: The choice between the two.
* `Precision.ofName?`: A precision by its name.

## Theorems

* `Precision.ofName?_name`: Every precision is found by its name.
-/

namespace Abacus

/-- The operations on one kind of number. -/
structure Arithmetic (α : Type) where
  literal : Float → α
  unary : Sign → α → α
  binary : BinOp → α → α → α

namespace Arithmetic

/-- Numbers of double precision. -/
def double : Arithmetic Float where
  literal v := v
  unary
    | .plus, x => x
    | .minus, x => -x
  binary
    | .add, x, y => x + y
    | .sub, x, y => x - y
    | .mul, x, y => x * y
    | .div, x, y => x / y
    | .pow, x, y => x.pow y

/-- Numbers of single precision; a literal is a double that is narrowed. -/
def single : Arithmetic Float32 where
  literal v := v.toFloat32
  unary
    | .plus, x => x
    | .minus, x => -x
  binary
    | .add, x, y => x + y
    | .sub, x, y => x - y
    | .mul, x, y => x * y
    | .div, x, y => x / y
    | .pow, x, y => x.pow y

end Arithmetic

/-- The width of the numbers of a calculation. -/
inductive Precision where
  | f64
  | f32
  deriving DecidableEq, Repr, Inhabited

namespace Precision

/-- The name of a precision. -/
def name : Precision → String
  | f64 => "f64"
  | f32 => "f32"

/-- The precision of a name. -/
def ofName? (s : String) : Option Precision :=
  if s = "f64" then some f64 else if s = "f32" then some f32 else none

theorem ofName?_name (p : Precision) : ofName? p.name = some p := by
  cases p <;> rfl

end Precision

end Abacus
