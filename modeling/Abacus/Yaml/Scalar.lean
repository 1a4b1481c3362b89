import Abacus.Numeral
import Abacus.Yaml.Cursor

/-!
# Written Scalars

The five ways of writing a scalar in a document, and the names that can stand
before one.

Three of the ways can run over several lines. Inside a quoted or a plain
scalar, the end of a line becomes a space and further empty lines become line
feeds. A block scalar keeps its lines, or folds those that start with text,
and its indentation is either given or that of its first line.

Between double quotes an escape can give a code by its number. It is the only
way to write a half of a character.

A loop that reads pieces is bounded by the number of characters that are
left, since every piece takes at least one.

## Main definitions

* `Reading.name`: A name of letters, digits, hyphens and underscores.
* `Reading.quoted`: A scalar in single or double quotes.
* `Reading.plain`: A scalar without quotes.
* `Reading.block`: A scalar in lines of its own.
* `Reading.tag`: The name of a kind in front of a value.
* `Reading.directive`: A line with a directive.
-/

namespace Abacus

namespace Yaml

/-- Whether a character can be part of a name. -/
def isNameChar (c : Char) : Bool :=
  c.isAlphanum || c == '-' || c == '_'

/-- Whether a character is a digit in base sixteen. -/
def isHexDigit (c : Char) : Bool :=
  c.isDigit || ('a' ≤ c && c ≤ 'f') || ('A' ≤ c && c ≤ 'F')

/-- The value of a digit in base sixteen. -/
def hexDigitValue (c : Char) : Nat :=
  if c.isDigit then c.toNat - '0'.toNat
  else if c.isLower then c.toNat - 'a'.toNat + 10
  else c.toNat - 'A'.toNat + 10

/-- The number that digits in base sixteen stand for. -/
def hexValue (ds : List Char) : Nat :=
  ds.foldl (fun n d => 16 * n + hexDigitValue d) 0

/-- What a single character after a backslash stands for. -/
def escapeOf? (c : Char) : Option Char :=
  [('0', '\x00'), ('a', '\x07'), ('b', '\x08'), ('t', '\t'), ('\t', '\t'), ('n', '\n'),
   ('v', '\x0b'), ('f', '\x0c'), ('r', '\r'), ('e', '\x1b'), (' ', ' '), ('"', '"'),
   ('\\', '\\'), ('/', '/'), ('N', '\u0085'), ('_', '\u00a0'), ('L', '\u2028'),
   ('P', '\u2029')].lookup c

/-- How many digits follow the letter of an escape by number. -/
def escapeWidth? (c : Char) : Option Nat :=
  [('x', 2), ('u', 4), ('U', 8)].lookup c

/-- A directive at the head of a document. -/
inductive Directive where
  | version (major : Int)
  | handle (name address : List Char)
  | other
  deriving Inhabited

namespace Reading

/-- A name, which has at least one character. -/
def name : Reading (List Char) := do
  let cs ← takeWhile isNameChar
  guard !cs.isEmpty
  return cs

/-- Exactly `n` digits in base sixteen. -/
def hexNumber (n : Nat) : Reading Nat := do
  let cs ← ahead n
  guard (cs.length == n && cs.all isHexDigit)
  skip n
  return hexValue cs

/-- The code of a number, which may be a half of a character. Numbers of more
    than 31 bits are not even looked at as codes. -/
def code (n : Nat) : Reading Code :=
  if n < 0x110000 then pure (Code.ofNat n)
  else if n < 0x80000000 then throw (.badValue "chr() arg not in range(0x110000)")
  else throw .codeTooLarge

/-- The line ends and the blanks between the lines of a quoted scalar. A mark
    between documents may not stand there. -/
def quotedBreaks : Nat → Reading (List Char)
  | 0 => failure
  | fuel + 1 => do
    guard !(← atDocumentMark)
    skipWhile fun c => c == ' ' || c == '\t'
    match ← lineBreak? with
    | some c => return c :: (← quotedBreaks fuel)
    | none => return []

/-- The blanks inside a quoted scalar, folded if a line ends in them. -/
def quotedBlanks : Reading (List Char) := do
  let blanks ← takeWhile fun c => c == ' ' || c == '\t'
  guard (← peek).isSome
  match ← lineBreak? with
  | none => return blanks
  | some c =>
    let more ← quotedBreaks ((← get).rest.length + 1)
    -- A line feed alone becomes a space; before empty lines it is dropped.
    if c != '\n' then return c :: more
    else if more.isEmpty then return [' ']
    else return more

/-- An escape after the backslash between double quotes. -/
def escape : Reading (List Code) := do
  let some c ← peek | failure
  if let some e := escapeOf? c then
    skip
    return [.char e]
  else if let some width := escapeWidth? c then
    skip
    return [← code (← hexNumber width)]
  else
    -- A backslash at the end of a line joins it to the next one.
    let some _ ← lineBreak? | failure
    return (← quotedBreaks ((← get).rest.length + 1)).map .char

/-- The pieces of a quoted scalar up to its closing quote. -/
def quotedPieces (quote : Char) : Nat → Reading (List Code)
  | 0 => failure
  | fuel + 1 => do
    let double := quote == '"'
    match ← peek with
    | none => failure
    | some c =>
      if c == quote then
        skip
        -- Two single quotes in a row are one in the text.
        if !double && (← peek) == some '\'' then
          skip
          return .char '\'' :: (← quotedPieces quote fuel)
        else return []
      else if c == ' ' || c == '\t' || isBreak c then
        let blanks ← quotedBlanks
        return blanks.map .char ++ (← quotedPieces quote fuel)
      else if double && c == '\\' then
        skip
        let piece ← escape
        return piece ++ (← quotedPieces quote fuel)
      else
        skip
        return .char c :: (← quotedPieces quote fuel)

/-- A scalar between quotes, the opening one next. -/
def quoted (quote : Char) : Reading (List Code) := do
  skip
  quotedPieces quote ((← get).rest.length + 1)

/-- Whether a plain scalar stops in front of the next characters. In a flow
    collection the marks of the collection stop it too. -/
def plainStops (flow : Bool) (c following : Option Char) : Bool :=
  match c with
  | none => true
  | some c =>
    atWordEnd (some c) ||
      (c == ':' && (atWordEnd following ||
        (flow && following.any fun f => [',', '[', ']', '{', '}'].contains f))) ||
      (flow && [',', '?', '[', ']', '{', '}'].contains c)

/-- The number of characters of a plain scalar before it stops or a word of it
    ends. -/
def plainLength (flow : Bool) : List Char → Nat
  | [] => 0
  | c :: rest => if plainStops flow (some c) rest.head? then 0 else plainLength flow rest + 1

/-- The line ends after the first one between the words of a plain scalar.
    There are none if a mark between documents comes. -/
def plainBreaks : Nat → Reading (Option (List Char))
  | 0 => failure
  | fuel + 1 => do
    match ← peek with
    | some ' ' =>
      skip
      plainBreaks fuel
    | _ =>
      match ← lineBreak? with
      | some c =>
        if ← atDocumentMark then return none
        return (← plainBreaks fuel).map (c :: ·)
      | none => return some []

/-- What stands between two words of a plain scalar, and whether a line ended
    in it. Nothing at all means that the scalar is over. -/
def plainBlanks : Reading (List Char × Bool) := do
  let blanks ← takeWhile (· == ' ')
  match ← lineBreak? with
  | none => return (blanks, false)
  | some c =>
    if ← atDocumentMark then return ([], true)
    match ← plainBreaks ((← get).rest.length + 1) with
    | none => return ([], true)
    | some more =>
      if c != '\n' then return (c :: more, true)
      else if more.isEmpty then return ([' '], true)
      else return (more, true)

/-- The words of a plain scalar, after `before`, which is what stands between
    the last word and the next. The result says whether a line ended after the
    last word. -/
def plainWords (flow : Bool) (indent : Int) (before : List Char) :
    Nat → Reading (List Char × Bool)
  | 0 => failure
  | fuel + 1 => do
    -- Between words a number sign starts a comment.
    if (← peek) == some '#' then return ([], false)
    let length := plainLength flow (← get).rest
    if length == 0 then return ([], false)
    let word ← ahead length
    skip length
    let (blanks, broken) ← plainBlanks
    if blanks.isEmpty || (← peek) == some '#' || (!flow && ((← get).column : Int) < indent) then
      return (before ++ word, broken)
    let (more, brokenLater) ← plainWords flow indent blanks fuel
    return (before ++ word ++ more, if more.isEmpty then broken else brokenLater)

/-- A scalar without quotes, whose lines are indented by at least `indent`.
    The result says whether a line ended after it. -/
def plain (flow : Bool) (indent : Int) : Reading (List Char × Bool) := do
  plainWords flow indent [] ((← get).rest.length + 1)

/-- What a block scalar does with the line ends after its text. -/
inductive Chomping where
  | clip
  | strip
  | keep
  deriving DecidableEq, Inhabited

/-- A sign in the head of a block scalar. -/
def chomping? : Reading (Option Chomping) := do
  match ← peek with
  | some '+' =>
    skip
    return some .keep
  | some '-' =>
    skip
    return some .strip
  | _ => return none

/-- A digit in the head of a block scalar, which is not zero. -/
def indentation? : Reading (Option Nat) := do
  match ← peek with
  | some c =>
    if c.isDigit then
      guard (c != '0')
      skip
      return some (c.toNat - '0'.toNat)
    else return none
  | none => return none

/-- The head of a block scalar: a sign and a digit in either order, both of
    which may be absent. -/
def blockHead : Reading (Chomping × Option Nat) := do
  let first ← chomping?
  let increment ← indentation?
  let second ← if first.isNone && increment.isSome then chomping? else pure none
  expect atSpaceOrEnd
  skipRestOfLine
  return ((first.or second).getD .clip, increment)

/-- The empty lines before the first line of a block scalar, and the greatest
    indentation that occurs in them or before the first line. -/
def blockIndentation (greatest : Nat) : Nat → Reading (List Char × Nat)
  | 0 => failure
  | fuel + 1 => do
    match ← peek with
    | some ' ' =>
      skip
      blockIndentation (max greatest (← get).column) fuel
    | _ =>
      match ← lineBreak? with
      | some c =>
        let (more, greatest) ← blockIndentation greatest fuel
        return (c :: more, greatest)
      | none => return ([], greatest)

/-- Goes over spaces up to a column. -/
def skipIndentation (indent : Nat) : Reading Unit := do
  let spaces := (← get).rest.takeWhile (· == ' ')
  skip (min spaces.length (indent - (← get).column))

/-- The empty lines between two lines of a block scalar. -/
def blockBreaks (indent : Nat) : Nat → Reading (List Char)
  | 0 => failure
  | fuel + 1 => do
    skipIndentation indent
    match ← lineBreak? with
    | some c => return c :: (← blockBreaks indent fuel)
    | none => return []

/-- The lines of a block scalar, where `breaks` are the empty lines before the
    next one. A line end is folded into a space if no empty line follows it
    and the lines on both sides start with text. -/
def blockLines (folded : Bool) (chomping : Chomping) (indent : Nat) (lineEnd : List Char)
    (breaks : List Char) : Nat → Reading (List Char)
  | 0 => failure
  | fuel + 1 => do
    if (← get).column == indent && (← peek).isSome then
      let startsWithText := (← peek).any fun c => c != ' ' && c != '\t'
      let line ← takeWhile fun c => !isBreak c
      let lineEnd := (← lineBreak?).toList
      let after ← blockBreaks indent ((← get).rest.length + 1)
      if (← get).column == indent && (← peek).isSome then
        let nextStartsWithText := (← peek).any fun c => c != ' ' && c != '\t'
        -- Lines that are indented further are not folded.
        let joint :=
          if folded && lineEnd == ['\n'] && startsWithText && nextStartsWithText then
            if after.isEmpty then [' '] else []
          else lineEnd
        let more ← blockLines folded chomping indent lineEnd after fuel
        return breaks ++ line ++ joint ++ more
      else
        let tail :=
          match chomping with
          | .strip => []
          | .clip => lineEnd
          | .keep => lineEnd ++ after
        return breaks ++ line ++ tail
    else
      match chomping with
      | .strip => return []
      | .clip => return lineEnd
      | .keep => return lineEnd ++ breaks

/-- A scalar in lines of its own, its mark next. The lines are indented deeper
    than the collection around, whose indentation is `indent`. -/
def block (folded : Bool) (indent : Int) : Reading (List Char) := do
  skip
  let (chomping, increment) ← blockHead
  let least := (max (indent + 1) 1).toNat
  let fuel := (← get).rest.length + 1
  match increment with
  | some n =>
    -- A given indentation counts from that of the collection around.
    let indent := least + n - 1
    let breaks ← blockBreaks indent fuel
    blockLines folded chomping indent [] breaks fuel
  | none =>
    let (breaks, greatest) ← blockIndentation 0 fuel
    blockLines folded chomping (max least greatest) [] breaks fuel

/-- Whether a character can stand in the address of a tag. -/
def isAddressChar (c : Char) : Bool :=
  c.isAlphanum || "-;/?:@&=+$,_.!~*'()[]%".toList.contains c

/-- The bytes that an address gives by number. -/
def addressBytes : Nat → Reading (List UInt8)
  | 0 => failure
  | fuel + 1 => do
    if (← peek) == some '%' then
      skip
      let n ← hexNumber 2
      return n.toUInt8 :: (← addressBytes fuel)
    else return []

/-- The pieces of an address. -/
def addressPieces : Nat → Reading (List Char)
  | 0 => failure
  | fuel + 1 => do
    match ← peek with
    | some '%' =>
      -- A character may need several bytes, so they are decoded in one go.
      let bytes ← addressBytes ((← get).rest.length + 1)
      let some s := String.fromUTF8? ⟨bytes.toArray⟩ | failure
      return s.toList ++ (← addressPieces fuel)
    | some c =>
      if isAddressChar c then
        skip
        return c :: (← addressPieces fuel)
      else return []
    | none => return []

/-- An address, which has at least one character. -/
def address : Reading (List Char) := do
  let cs ← addressPieces ((← get).rest.length + 1)
  guard !cs.isEmpty
  return cs

/-- The handle of a tag: an exclamation mark, or a name between two. -/
def handle : Reading (List Char) := do
  expect (· == some '!')
  skip
  if (← peek) == some ' ' then return ['!']
  let cs ← takeWhile isNameChar
  expect (· == some '!')
  skip
  return '!' :: cs ++ ['!']

/-- A tag, its exclamation mark next: the handle, if the tag has one, and the
    address after it. -/
def tag : Reading (Option (List Char) × List Char) := do
  let parts ←
    match ← peek 1 with
    | some '<' => do
      skip 2
      let cs ← address
      expect (· == some '>')
      skip
      pure (none, cs)
    | c =>
      if atWordEnd c then do
        skip
        pure (none, ['!'])
      else do
        let word := ((← get).rest.drop 1).takeWhile fun c => !atSpaceOrEnd (some c)
        -- Without a second mark in the word the first one is the handle.
        if word.contains '!' then
          let h ← handle
          pure (some h, ← address)
        else
          skip
          pure (some ['!'], ← address)
  expect atSpaceOrEnd
  return parts

/-- A number in a directive. -/
def directiveNumber : Reading Int := do
  let ds ← takeWhile Char.isDigit
  guard !ds.isEmpty
  wholeOf 10 (ds.map .char)

/-- A line with a directive, its percent sign next. -/
def directive : Reading Directive := do
  skip
  let word ← name
  expect atSpaceOrEnd
  let result ←
    if word == "YAML".toList then do
      skipWhile (· == ' ')
      let major ← directiveNumber
      expect (· == some '.')
      skip
      discard directiveNumber
      expect atSpaceOrEnd
      pure (Directive.version major)
    else if word == "TAG".toList then do
      skipWhile (· == ' ')
      let h ← handle
      expect (· == some ' ')
      skipWhile (· == ' ')
      let cs ← address
      expect atSpaceOrEnd
      pure (Directive.handle h cs)
    else do
      skipWhile fun c => !isBreak c
      pure Directive.other
  skipRestOfLine
  return result

end Reading

end Yaml

end Abacus
