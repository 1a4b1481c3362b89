import Abacus.Yaml.Fault

/-!
# Reading Positions

A place in the text of a document: the characters that are still to be read,
and where they stand. The column decides the structure of a document, and the
line and the index decide how far apart two places are.

Readings are functions from a place to a result and a later place, or to a
fault where the text goes wrong.

## Main definitions

* `isBreak`: The characters that end a line.
* `Cursor`: A place in a text.
* `Cursor.advance`: The place after some more characters.
* `Reading`: A reading that can fail.
* `Reading.takeWhile`, `Reading.skipWhile`: All characters of a kind.
* `Reading.lineBreak?`: The end of a line, if it is there.
-/

namespace Abacus

namespace Yaml

/-- Whether a character ends a line. A carriage return does not occur: the
    ends of lines that have one are made plain before. -/
def isBreak (c : Char) : Bool :=
  c == '\n' || c == '\u0085' || c == '\u2028' || c == '\u2029'

/-- Whether a line ends at a character or where there is none. -/
def atLineEnd : Option Char → Bool
  | none => true
  | some c => isBreak c

/-- Whether a line or a word before a space ends at a character. -/
def atSpaceOrEnd : Option Char → Bool
  | none => true
  | some c => c == ' ' || isBreak c

/-- Whether a word ends at a character: at a space, a tab or the end of a
    line. -/
def atWordEnd : Option Char → Bool
  | none => true
  | some c => c == ' ' || c == '\t' || isBreak c

/-- The mark that may stand at the start of a text and that has no width. -/
def byteOrderMark : Char := '\uFEFF'

/-- A place in a text. Lines and columns count from zero. -/
structure Cursor where
  rest : List Char
  index : Nat
  line : Nat
  column : Nat
  deriving Inhabited

namespace Cursor

/-- The start of a text. -/
def start (text : List Char) : Cursor :=
  ⟨text, 0, 0, 0⟩

/-- The character `n` places ahead. -/
def peek (n : Nat) (c : Cursor) : Option Char :=
  c.rest[n]?

/-- The place after one more character. -/
def next (c : Cursor) : Cursor :=
  match c.rest with
  | [] => c
  | ch :: rest =>
    if isBreak ch then ⟨rest, c.index + 1, c.line + 1, 0⟩
    else if ch == byteOrderMark then ⟨rest, c.index + 1, c.line, c.column⟩
    else ⟨rest, c.index + 1, c.line, c.column + 1⟩

/-- The place after `n` more characters. -/
def advance : Nat → Cursor → Cursor
  | 0, c => c
  | n + 1, c => advance n c.next

end Cursor

/-- A reading that starts at a place and ends at another one, or fails. -/
abbrev Reading (α : Type) := StateT Cursor (Except Fault) α

namespace Reading

/-- The character `n` places ahead. -/
def peek (n : Nat := 0) : Reading (Option Char) := do
  return (← get).peek n

/-- Goes on by `n` characters. -/
def skip (n : Nat := 1) : Reading Unit :=
  modify (·.advance n)

/-- The next `n` characters without reading them. -/
def ahead (n : Nat) : Reading (List Char) := do
  return (← get).rest.take n

/-- Reads all characters of a kind. -/
def takeWhile (p : Char → Bool) : Reading (List Char) := do
  let cs := (← get).rest.takeWhile p
  skip cs.length
  return cs

/-- Goes over all characters of a kind. -/
def skipWhile (p : Char → Bool) : Reading Unit := do
  discard (takeWhile p)

/-- Goes on if a condition on the next character holds, and fails if not. -/
def expect (p : Option Char → Bool) : Reading Unit := do
  guard (p (← peek))

/-- Reads the end of a line, if it is there. The two separators of Unicode
    stay what they are; all other ends become a line feed. -/
def lineBreak? : Reading (Option Char) := do
  match ← peek with
  | some c =>
    if isBreak c then
      skip
      return some (if c == '\u2028' || c == '\u2029' then c else '\n')
    else return none
  | none => return none

/-- Goes over a comment up to the end of its line. -/
def skipComment : Reading Unit := do
  if (← peek) == some '#' then skipWhile fun c => !isBreak c

/-- Goes over what may follow on the rest of a line, which is spaces and a
    comment, and over the end of the line. -/
def skipRestOfLine : Reading Unit := do
  skipWhile (· == ' ')
  skipComment
  expect atLineEnd
  discard lineBreak?

/-- Whether a line that starts here starts with the mark between two
    documents or the one after a document. -/
def atDocumentMark : Reading Bool := do
  let mark ← ahead 3
  return (mark == ['-', '-', '-'] || mark == ['.', '.', '.']) && atWordEnd (← peek 3)

end Reading

end Yaml

end Abacus
