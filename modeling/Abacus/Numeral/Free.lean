import Abacus.Numeral
import Abacus.Text.Blank
import Abacus.Text.Digit
import Abacus.Text.Quoted

/-!
# Numbers in Free Spelling

Numbers as they are written outside of expressions. There may be blanks around
them, a sign in front, and digits of any script in them.

Whole numbers are read in a base, which may be marked once more in front of
the digits. A number of the decimal system may not have too many digits, and
this is found before it is found whether anything else is wrong with it. In
the other bases there is no limit. The same limit holds where a number is
written out.

Numbers with a point may have an exponent, and there are words for the values
that have no digits. Between two digits there may be an underscore.

## Main definitions

* `plainForm`: A text with ASCII digits and blanks only.
* `NotWhole`: Why a text is no whole number.
* `wholeNumber`: The whole number of a text in a base.
* `floatNumber?`: The double of a text.
* `shownInt?`: A whole number as a text.
-/

namespace Abacus

/-- A character with the digits of all scripts replaced by those of ASCII and
    the blanks beyond ASCII by spaces. -/
def plainChar (c : Char) : Char :=
  if c.toNat < 0x80 then c
  else
    match decimalDigit? c with
    | some d => Char.ofNat ('0'.toNat + d)
    | none => if isBlank c then ' ' else c

/-- A text with ASCII digits and blanks in place of all others. -/
def plainForm (cs : List Char) : List Char :=
  cs.map plainChar

/-- Whether a character may stand around a number in plain form. -/
def isGap (c : Char) : Bool :=
  c == ' ' || (0x09 ≤ c.toNat && c.toNat ≤ 0x0d)

/-- A text without the blanks around it. -/
def trimGaps (cs : List Char) : List Char :=
  ((cs.dropWhile isGap).reverse.dropWhile isGap).reverse

/-- A text without its sign, and whether the sign is a minus. -/
def splitSign : List Char → Bool × List Char
  | '-' :: rest => (true, rest)
  | '+' :: rest => (false, rest)
  | cs => (false, cs)

/-- Why a text is no whole number. -/
inductive NotWhole where
  /-- There are no digits where they should be, or there is something else. -/
  | unreadable
  /-- There are too many digits. -/
  | tooLong (digits : Nat)
  deriving DecidableEq, Repr, Inhabited

/-- How many decimal digits a number may have. -/
def digitLimit : Nat := 4300

/-- A whole number in decimal digits, unless it has too many of them. -/
def shownInt? (n : Int) : Option String :=
  if (toString n.natAbs).length ≤ digitLimit then some (toString n) else none

/-- How much of a text a message shows. -/
def shownLimit : Nat := 200

/-- What is said about a text that is no whole number in a base. -/
def NotWhole.message (base : Nat) (cs : List Code) : NotWhole → String
  | unreadable =>
    "invalid literal for int() with base " ++ toString base ++ ": " ++
      String.ofList ((quotedCodes cs).take shownLimit)
  | tooLong digits =>
    "Exceeds the limit (" ++ toString digitLimit ++ " digits) for integer string conversion: " ++
      "value has " ++ toString digits ++ " digits; use sys.set_int_max_str_digits() to increase " ++
      "the limit"

/-- The letter that marks a base after a zero. -/
def baseLetter? (base : Nat) : Option Char :=
  [(2, 'b'), (8, 'o'), (16, 'x')].lookup base

/-- A text without the mark of a base at its front. -/
def dropBaseMark (base : Nat) : List Char → List Char
  | '0' :: c :: rest => if baseLetter? base = some c.toLower then rest else '0' :: c :: rest
  | cs => cs

/-- The digit that an ASCII character is in a base. -/
def digitIn? (base : Nat) (c : Char) : Option Nat :=
  let value? :=
    if c.isDigit then some (c.toNat - '0'.toNat)
    else if c.isAlpha then some (c.toLower.toNat - 'a'.toNat + 10)
    else none
  value?.filter (· < base)

/-- The whole number of a text in a base. -/
def wholeNumber (base : Nat) (cs : List Char) : Except NotWhole Int :=
  let (negative, body) := splitSign ((plainForm cs).dropWhile isGap)
  let body := dropBaseMark base body
  let isDigit (c : Char) : Bool := (digitIn? base c).isSome
  let ds := body.takeWhile isDigit
  -- The limit comes first: what follows the digits is not looked at before.
  if base = 10 ∧ digitLimit < ds.length then .error (.tooLong ds.length)
  else if ds = [] ∨ !(body.dropWhile isDigit).all isGap then .error .unreadable
  else
    let magnitude : Int := ds.foldl (fun n d => base * n + (digitIn? base d).getD 0) 0
    .ok (if negative then -magnitude else magnitude)

/-- A text without underscores, each of which has to stand between two digits.
    The flag says whether a digit stands before the text. -/
def withoutMarks? (afterDigit : Bool) : List Char → Option (List Char)
  | [] => some []
  | c :: rest =>
    if c = '_' then
      if afterDigit && rest.head?.any Char.isDigit then withoutMarks? false rest else none
    else (withoutMarks? c.isDigit rest).map (c :: ·)

/-- Whether a text is a numeral with nothing after it. -/
def isNumeral (cs : List Char) : Bool :=
  match Numeral.split cs with
  | some (_, []) => true
  | _ => false

/-- The exponent of a number: digits with a sign or without. -/
def readExponent? (cs : List Char) : Option Int :=
  let (negative, ds) := splitSign cs
  if ds ≠ [] ∧ ds.all Char.isDigit then
    let magnitude : Int := digitsValue ds
    some (if negative then -magnitude else magnitude)
  else none

/-- The double of a text without sign: a word, or a numeral with an exponent
    or without. -/
def readMagnitude? (cs : List Char) : Option Float :=
  let word := String.ofList (cs.map Char.toLower)
  if word = "inf" ∨ word = "infinity" then some (1.0 / 0.0)
  else if word = "nan" then some (0.0 / 0.0)
  else do
    let isMark (c : Char) : Bool := c == 'e' || c == 'E'
    let numeral := cs.takeWhile fun c => !isMark c
    let places : Int := (numeral.dropWhile Char.isDigit).length - 1
    let e ←
      match cs.dropWhile fun c => !isMark c with
      | [] => some 0
      | _ :: ds => readExponent? ds
    if isNumeral numeral then
      some (Decimal.toFloat ⟨digitsValue (numeral.filter Char.isDigit), e - max places 0⟩)
    else none

/-- The double of a text. -/
def floatNumber? (cs : List Char) : Option Float := do
  let (negative, body) := splitSign (← withoutMarks? false (trimGaps (plainForm cs)))
  let v ← readMagnitude? body
  return if negative then -v else v

/-- What is said about a text that is no number. -/
def notAFloat (cs : List Code) : String :=
  "could not convert string to float: " ++ String.ofList (quotedCodes cs)

end Abacus
