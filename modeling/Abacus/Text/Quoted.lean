import Abacus.Text.Code
import Abacus.Text.Printable

/-!
# Quoted Text

How a text is shown inside a message: between quotes, on one line, and with
every character that cannot be shown written as an escape.

Single quotes are the rule. A text that holds a single quote and no double
quote goes between double quotes instead, which spares the escape. A half of a
character cannot be shown and is written as an escape too.

## Main definitions

* `hexDigits`: A number in base sixteen with a least width.
* `quoteMark`: The quote that suits a text.
* `escaped`: One character as it stands between quotes.
* `quotedCodes`: Codes between quotes.
* `quoted`: A text between quotes.
-/

namespace Abacus

/-- A number in base sixteen, in lower case, filled with zeros up to a
    width. -/
def hexDigits (width n : Nat) : List Char :=
  let ds := Nat.toDigits 16 n
  List.replicate (width - ds.length) '0' ++ ds

/-- The quote that suits a text: the double one where the text holds single
    quotes only. -/
def quoteMark (cs : List Char) : Char :=
  if cs.contains '\'' && !cs.contains '"' then '"' else '\''

/-- One character as it stands between two marks. A character that cannot be
    shown is written as its code point, in the shortest of three widths. -/
def escaped (mark c : Char) : List Char :=
  if c = mark ∨ c = '\\' then ['\\', c]
  else if c = '\t' then ['\\', 't']
  else if c = '\n' then ['\\', 'n']
  else if c = '\r' then ['\\', 'r']
  else if isPrintable c then [c]
  else if c.toNat < 0x100 then '\\' :: 'x' :: hexDigits 2 c.toNat
  else if c.toNat < 0x10000 then '\\' :: 'u' :: hexDigits 4 c.toNat
  else '\\' :: 'U' :: hexDigits 8 c.toNat

/-- One code as it stands between two marks. -/
def Code.escaped (mark : Char) : Code → List Char
  | char c => Abacus.escaped mark c
  | half n => '\\' :: 'u' :: hexDigits 4 (firstHalf + n)

/-- Codes between quotes, on one line and with their escapes. -/
def quotedCodes (cs : List Code) : List Char :=
  let mark := quoteMark (cs.filterMap Code.char?)
  mark :: cs.flatMap (Code.escaped mark) ++ [mark]

/-- A text between quotes, on one line and with its escapes. -/
def quoted (cs : List Char) : List Char :=
  quotedCodes (cs.map .char)

end Abacus
