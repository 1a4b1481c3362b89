import Abacus.Numeral.Free
import Abacus.Token

/-!
# Reading Labels

Labels of tokens, read back into tokens. Every label that is not the spelling
of an operator, a parenthesis or a constant is the label of a number, which
may be spelled freely.

## Main definitions

* `Token.fixedLabels`: The labels that are not labels of numbers.
* `Token.ofLabel?`: The token of a label.
-/

namespace Abacus

namespace Token

/-- The labels that are not labels of numbers, with their tokens. -/
def fixedLabels : List (String × Token) :=
  [("+", op (.binary .add)), ("-", op (.binary .sub)), ("*", op (.binary .mul)),
   ("/", op (.binary .div)), ("**", op (.binary .pow)), ("u+", op (.unary .plus)),
   ("u-", op (.unary .minus)), ("(", openParen), (")", closeParen), ("e", atom .e),
   ("pi", atom .pi)]

/-- The token of a label. -/
def ofLabel? (label : String) : Option Token :=
  match fixedLabels.lookup label with
  | some t => some t
  | none => (floatNumber? label.toList).map fun v => atom (.number v)

end Token

end Abacus
