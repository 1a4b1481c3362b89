import Abacus.Text.Case
import Abacus.Yaml.Stamp

/-!
# What a Scalar Stands For

A scalar without quotes and without a tag stands for what it is written like:
no value, a truth value, a whole number, a number with a point, a day, or a
text if it is like none of these. Two marks that mean something only as keys
are told apart as well, and three more that mean nothing at all. A line feed
at the end does not matter for this, unless it is all there is.

Whole numbers can be written in four bases, and numbers of either kind in
parts of sixty with colons between them. Underscores between digits count for
nothing. A number with an exponent needs a point, and its exponent needs a
sign.

What a scalar is written like and what it is read as are two things, since a
tag can say that a scalar is a number whatever it is written like. A number is
therefore read in free spelling. A scalar with halves of characters in it is
written like a text, and cannot be read as anything else that is not null.

## Main definitions

* `Tag`: The kinds of values that a document can have.
* `Tag.ofPlain`: The kind of a scalar without quotes.
* `Tag.ofAddress`: The kind that the address of a tag names.
* `intOfText`, `floatOfText`, `boolOfText`, `stampOfText`: Values of scalars.
-/

namespace Abacus

namespace Yaml

/-- The kinds of values that a document can have. -/
inductive Tag where
  | null
  | bool
  | int
  | float
  | stamp
  | text
  | binary
  /-- The key whose mapping is laid under the one it stands in. -/
  | merge
  /-- The mark of a default value, which stands for itself as a key. -/
  | value
  | sequence
  | mapping
  | pairs
  | set
  | unknown
  deriving DecidableEq, Repr, Inhabited

/-- The truth value of a word, in one of three letter cases. -/
def boolOfText? (cs : List Char) : Option Bool :=
  let s := String.ofList cs
  if ["yes", "Yes", "YES", "true", "True", "TRUE", "on", "On", "ON"].contains s then some true
  else if ["no", "No", "NO", "false", "False", "FALSE", "off", "Off", "OFF"].contains s then
    some false
  else none

/-- Whether a text is a way to write no value. -/
def isNullText (cs : List Char) : Bool :=
  ["~", "null", "Null", "NULL"].contains (String.ofList cs)

/-- Whether a character is a digit or an underscore. -/
def isDigitOrGap (c : Char) : Bool :=
  c.isDigit || c == '_'

/-- The parts of a list between all occurrences of a mark. -/
def splitAll {α : Type} [DecidableEq α] (mark : α) : List α → List (List α)
  | [] => [[]]
  | a :: rest =>
    match splitAll mark rest with
    | part :: parts => if a = mark then [] :: part :: parts else (a :: part) :: parts
    | [] => [[a]]

/-- Whether a text is a number below sixty, in one digit or two. -/
def isSixtieth : List Char → Bool
  | [d] => d.isDigit
  | [t, d] => '0' ≤ t && t ≤ '5' && d.isDigit
  | _ => false

/-- Whether a text is digits and underscores, then parts of sixty, at least
    one. -/
def isSixties (first : Char → Bool) (cs : List Char) : Bool :=
  match splitAll ':' cs with
  | (c :: part) :: p :: parts =>
    first c && part.all isDigitOrGap && isSixtieth p && parts.all isSixtieth
  | _ => false

/-- Whether a text is written like a whole number. -/
def isIntText (cs : List Char) : Bool :=
  let isPositive (c : Char) : Bool := '1' ≤ c && c ≤ '9'
  match (splitSign cs).2 with
  | ['0'] => true
  | '0' :: 'b' :: rest => !rest.isEmpty && rest.all fun c => c == '0' || c == '1' || c == '_'
  | '0' :: 'x' :: rest =>
    !rest.isEmpty && rest.all fun c =>
      c.isDigit || ('a' ≤ c && c ≤ 'f') || ('A' ≤ c && c ≤ 'F') || c == '_'
  | '0' :: rest => rest.all fun c => ('0' ≤ c && c ≤ '7') || c == '_'
  | c :: rest => (isPositive c && rest.all isDigitOrGap) || isSixties isPositive (c :: rest)
  | [] => false

/-- Whether a text is an exponent with its sign, or nothing. -/
def isExponentText : List Char → Bool
  | [] => true
  | mark :: sign :: ds =>
    (mark == 'e' || mark == 'E') && (sign == '+' || sign == '-') && !ds.isEmpty &&
      ds.all Char.isDigit
  | _ => false

/-- Whether a text is written like a number with a point. -/
def isFloatText (cs : List Char) : Bool :=
  let body := (splitSign cs).2
  let words := String.ofList body
  if [".inf", ".Inf", ".INF"].contains words then true
  else if [".nan", ".NaN", ".NAN"].contains (String.ofList cs) then true
  else
    let whole := body.takeWhile fun c => c != '.'
    match body.dropWhile fun c => c != '.' with
    | '.' :: rest =>
      let exponent := rest.dropWhile isDigitOrGap
      match whole with
      | [] => cs.head? == some '.' && rest.head?.any Char.isDigit && isExponentText exponent
      | c :: more =>
        (c.isDigit && more.all isDigitOrGap && isExponentText exponent) ||
          (isSixties Char.isDigit whole && exponent.isEmpty)
    | _ => false

namespace Tag

/-- The kind of a text without quotes. -/
def ofChars (cs : List Char) : Tag :=
  if cs = [] then null
  else
    let body := if cs.getLast? = some '\n' then cs.dropLast else cs
    if body = [] then text
    else if (boolOfText? body).isSome then bool
    else if isFloatText body then float
    else if isIntText body then int
    else if body = ['<', '<'] then merge
    else if isNullText body then null
    else if (stampOf? true body).isSome then stamp
    else if body = ['='] then value
    -- The marks of tags, anchors and aliases by themselves stand for nothing.
    else if body = ['!'] ∨ body = ['&'] ∨ body = ['*'] then unknown
    else text

/-- The kind of a scalar without quotes. -/
def ofPlain (cs : List Code) : Tag :=
  match chars? cs with
  | some cs => ofChars cs
  | none => text

/-- The start of the addresses of all kinds. -/
def home : List Char := "tag:yaml.org,2002:".toList

/-- The kind that an address names. -/
def ofAddress (cs : List Char) : Tag :=
  if home.isPrefixOf cs then
    ([("null", null), ("bool", bool), ("int", int), ("float", float), ("timestamp", stamp),
      ("str", text), ("binary", binary), ("merge", merge), ("value", value), ("seq", sequence),
      ("map", mapping), ("omap", pairs), ("pairs", pairs), ("set", set)].lookup
        (String.ofList (cs.drop home.length))).getD unknown
  else unknown

end Tag

/-- The value of numbers in parts of sixty, the first part counting most. -/
def sixtiesValue (parts : List Int) : Int :=
  parts.foldl (fun n p => 60 * n + p) 0

/-- A scalar without its sign, and whether the sign is a minus. -/
def splitCodeSign : List Code → Bool × List Code
  | .char '-' :: rest => (true, rest)
  | .char '+' :: rest => (false, rest)
  | cs => (false, cs)

/-- A scalar without its underscores. -/
def withoutGaps (cs : List Code) : List Code :=
  cs.filter (· ≠ .char '_')

/-- The whole number that a scalar is read as: its first digits say which base
    it is in. -/
def intOfText (cs : List Code) : Except Fault Int := do
  let (negative, body) := splitCodeSign (withoutGaps cs)
  let magnitude ←
    match body with
    | [] => throw .noDigits
    | [.char '0'] => pure 0
    | .char '0' :: .char 'b' :: ds => wholeOf 2 ds
    | .char '0' :: .char 'x' :: ds => wholeOf 16 ds
    | .char '0' :: _ => wholeOf 8 body
    | _ =>
      if body.contains (.char ':') then
        pure (sixtiesValue (← (splitAll (.char ':') body).mapM (wholeOf 10)))
      else wholeOf 10 body
  return if negative then -magnitude else magnitude

/-- One part of a number with a point. -/
def floatPart (cs : List Code) : Except Fault Float :=
  match (chars? cs).bind floatNumber? with
  | some v => .ok v
  | none => .error (.badValue (notAFloat cs))

/-- How many parts of sixty a number can have before the weight of the first
    one is beyond all doubles. -/
def sixtiesLimit : Nat := 174

/-- The value of numbers in parts of sixty, added up from the last part, which
    counts least. The weight of every part is exact before it is rounded. -/
def sixtiesFloat (parts : List Float) : Float :=
  (parts.reverse.foldl
    (fun (acc : Float × Nat) p => (acc.1 + p * Decimal.toFloat ⟨acc.2, 0⟩, 60 * acc.2))
    (0.0, 1)).1

/-- A scalar as it is read as a number with a point: without underscores and
    in lower case. -/
def floatForm (cs : List Code) : List Code :=
  lowerCase (withoutGaps cs)

/-- The word for the value that is no number, without its sign. -/
def nanWord : List Code := ".nan".toList.map .char

/-- Whether a scalar is the word for the value that is no number. -/
def isNanWord (cs : List Code) : Bool :=
  (splitCodeSign (floatForm cs)).2 == nanWord

/-- The number with a point that a scalar is read as. -/
def floatOfText (cs : List Code) : Except Fault Float := do
  let cs := floatForm cs
  if cs.isEmpty then throw .noDigits
  let (negative, body) := splitCodeSign cs
  let magnitude ←
    if body = ".inf".toList.map .char then pure (1.0 / 0.0)
    else if body = nanWord then pure (0.0 / 0.0)
    else if body.contains (.char ':') then do
      let parts ← (splitAll (.char ':') body).mapM floatPart
      if sixtiesLimit < parts.length then throw .tooLarge
      pure (sixtiesFloat parts)
    else floatPart body
  return if negative then -magnitude else magnitude

/-- The truth value that a scalar is read as, in any letter case. -/
def boolOfText (cs : List Code) : Except Fault Bool :=
  match (chars? (lowerCase cs)).bind boolOfText? with
  | some b => .ok b
  | none => .error (.notASwitch (lowerCase cs))

/-- The stamp that a scalar is read as. A line feed at its end does not
    matter. -/
def stampOfText (cs : List Code) : Except Fault Stamp :=
  let body := if cs.getLast? = some (.char '\n') then cs.dropLast else cs
  match (chars? body).bind (stampOf? false) with
  | some s => checkedStamp s
  | none => .error .notAStamp

end Yaml

end Abacus
