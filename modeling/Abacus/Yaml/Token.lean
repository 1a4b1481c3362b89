import Abacus.Yaml.Scalar

/-!
# Tokens of a Document

A document as a list of tokens, in which the structure that indentation and
position give is written out: block collections have a start and an end, and
every key has a mark in front.

The mark of a simple key comes to light only at the colon behind it. So each
token that could begin a key is remembered, one per level of flow collections,
and the colon puts the mark in front of it after the fact. A key has to lie on
one line and be short, so a candidate lapses when the line ends. At the start
of a line inside a block mapping only a key can stand, so there a lapse makes
the document malformed.

The indentations of the block collections that are open form a stack. What
stands further left than the innermost ends it. Inside flow collections,
indentation means nothing.

The tokens in front of the first candidate are settled: no mark will come
between them any more. Where the text goes wrong, just these are handed on, so
that what is wrong with them can be found first.

## Main definitions

* `Token`: The tokens of a document.
* `Candidate`: A token that could begin a key.
* `Layout`: The open collections and what is known about keys.
* `Layout.fetch`: Reads one more token, with the structure in front of it.
* `Layout.settled`: The tokens that no mark can come between any more.
* `tokensOf`: The tokens of a text up to its end or its first fault.
-/

namespace Abacus

namespace Yaml

/-- The tokens of a document. -/
inductive Token where
  | directive (d : Directive)
  | documentStart
  | documentEnd
  | blockSequenceStart
  | blockMappingStart
  | blockEnd
  | flowSequenceStart
  | flowSequenceEnd
  | flowMappingStart
  | flowMappingEnd
  | blockEntry
  | flowEntry
  | key
  | value
  | alias (name : List Char)
  | anchor (name : List Char)
  | tag (handle : Option (List Char)) (address : List Char)
  | scalar (text : List Code) (plain : Bool)
  deriving Inhabited

/-- A token that could begin a key: how many tokens stand before it, where it
    stands, and whether it has to be one. -/
structure Candidate where
  before : Nat
  required : Bool
  index : Nat
  line : Nat
  column : Nat
  deriving Inhabited

/-- The open collections and what is known about keys. The tokens are held
    with the latest in front, the indentations with the innermost in front,
    and there is one place for a candidate per level of flow collections, and
    one for the block level at the end. -/
structure Layout where
  cursor : Cursor
  tokens : List Token
  indents : List Nat
  candidates : List (Option Candidate)
  keyAllowed : Bool
  deriving Inhabited

/-- How far a key may reach. -/
def keyReach : Nat := 1024

namespace Layout

/-- The start of a text. -/
def start (text : List Char) : Layout :=
  ⟨Cursor.start text, [], [], [none], true⟩

/-- Whether a flow collection is open. -/
def inFlow (s : Layout) : Bool :=
  1 < s.candidates.length

/-- The indentation of the innermost block collection, or minus one. -/
def indent (s : Layout) : Int :=
  match s.indents with
  | [] => -1
  | n :: _ => n

/-- Adds a token. -/
def emit (t : Token) (s : Layout) : Layout :=
  { s with tokens := t :: s.tokens }

/-- Puts tokens after the first `n` tokens. -/
def emitAfter (n : Nat) (ts : List Token) (s : Layout) : Layout :=
  let later := s.tokens.length - n
  { s with tokens := s.tokens.take later ++ ts.reverse ++ s.tokens.drop later }

/-- Reads with a reading from the present place. -/
def readWith {α : Type} (r : Reading α) (s : Layout) : Except Fault (α × Layout) :=
  match r.run s.cursor with
  | .ok (a, cursor) => .ok (a, { s with cursor := cursor })
  | .error f => .error f

/-- Goes on by `n` characters. -/
def advance (n : Nat) (s : Layout) : Layout :=
  { s with cursor := s.cursor.advance n }

/-- Whether a candidate has lapsed at the present place. -/
def hasLapsed (s : Layout) (c : Candidate) : Bool :=
  c.line != s.cursor.line || keyReach < s.cursor.index - c.index

/-- Forgets the candidates that have lapsed, none of which may be required. -/
def dropLapsed (s : Layout) : Except Fault Layout :=
  let lapsed (c : Option Candidate) : Bool := c.any s.hasLapsed
  if s.candidates.any fun c => lapsed c && c.any (·.required) then failure
  else
    return { s with candidates := s.candidates.map fun c => if lapsed c then none else c }

/-- Forgets the candidate of the present level, which may not be required. -/
def dropCandidate (s : Layout) : Except Fault Layout :=
  match s.candidates with
  | some c :: rest => if c.required then failure else return { s with candidates := none :: rest }
  | _ => return s

/-- Remembers the next token as a candidate, where a key may begin. In a block
    collection, what stands at its indentation has to be a key. -/
def saveCandidate (s : Layout) : Except Fault Layout :=
  if s.keyAllowed then do
    let required := !s.inFlow && s.indent == (s.cursor.column : Int)
    let s ← s.dropCandidate
    let c : Candidate :=
      ⟨s.tokens.length, required, s.cursor.index, s.cursor.line, s.cursor.column⟩
    return { s with candidates := some c :: s.candidates.drop 1 }
  else return s

/-- Ends the block collections that are indented deeper than a column. -/
def endBlocks (column : Int) (s : Layout) : Layout :=
  let deeper := s.indents.takeWhile fun (n : Nat) => decide (column < (n : Int))
  { s with
    tokens := deeper.map (fun _ => Token.blockEnd) ++ s.tokens
    indents := s.indents.drop deeper.length }

/-- Opens a block collection at a column if none is open there. The flag says
    whether one was opened. -/
def openBlock (column : Nat) (s : Layout) : Bool × Layout :=
  if s.indent < (column : Int) then (true, { s with indents := column :: s.indents })
  else (false, s)

/-- Opens a block collection at the present column, with its start as a
    token. -/
def startBlock (t : Token) (s : Layout) : Layout :=
  let (opened, s) := s.openBlock s.cursor.column
  if opened then s.emit t else s

/-- Says whether a key may begin next. -/
def allowKey (b : Bool) (s : Layout) : Layout :=
  { s with keyAllowed := b }

/-- Goes to the next token. In block collections a key may begin on a new
    line. -/
def toNextToken : Nat → Layout → Layout
  | 0, s => s
  | fuel + 1, s =>
    let gap : Reading (Option Char) := do
      Reading.skipWhile (· == ' ')
      Reading.skipComment
      Reading.lineBreak?
    match s.readWith gap with
    | .ok (some _, s) => toNextToken fuel (if s.inFlow then s else s.allowKey true)
    | .ok (none, s) => s
    | .error _ => s

/-- The end of the text, which ends all block collections. -/
def endText (s : Layout) : Except Fault Layout :=
  (s.endBlocks (-1)).dropCandidate

/-- A directive or a mark between documents, which end all block
    collections. -/
def betweenDocuments (r : Reading Token) (s : Layout) : Except Fault Layout := do
  let s ← (s.endBlocks (-1)).dropCandidate
  let (t, s) ← (s.allowKey false).readWith r
  return s.emit t

/-- The start of a flow collection, which may itself begin a key. -/
def openFlow (t : Token) (s : Layout) : Except Fault Layout := do
  let s ← s.saveCandidate
  return (({ s with candidates := none :: s.candidates }.allowKey true).advance 1).emit t

/-- The end of a flow collection. -/
def closeFlow (t : Token) (s : Layout) : Except Fault Layout := do
  guard s.inFlow
  let s ← s.dropCandidate
  return (({ s with candidates := s.candidates.drop 1 }.allowKey false).advance 1).emit t

/-- The comma between entries of a flow collection. -/
def flowEntry (s : Layout) : Except Fault Layout := do
  let s ← (s.allowKey true).dropCandidate
  return (s.advance 1).emit .flowEntry

/-- The hyphen of an entry of a block sequence. -/
def blockEntry (s : Layout) : Except Fault Layout := do
  guard (s.inFlow || s.keyAllowed)
  let s := if s.inFlow then s else s.startBlock .blockSequenceStart
  let s ← (s.allowKey true).dropCandidate
  return (s.advance 1).emit .blockEntry

/-- The mark of a key that is not simple. -/
def explicitKey (s : Layout) : Except Fault Layout := do
  guard (s.inFlow || s.keyAllowed)
  let s := if s.inFlow then s else s.startBlock .blockMappingStart
  let s ← (s.allowKey !s.inFlow).dropCandidate
  return (s.advance 1).emit .key

/-- The colon in front of a value. A candidate of the present level turns out
    to be a key. -/
def valueMark (s : Layout) : Except Fault Layout :=
  match s.candidates with
  | some c :: rest =>
    let s := ({ s with candidates := none :: rest }).allowKey false
    let (opened, s) := if s.inFlow then (false, s) else s.openBlock c.column
    -- The tokens of the key are out already, so the marks go in front of them.
    let marks := if opened then [.blockMappingStart, .key] else [.key]
    return ((s.emitAfter c.before marks).advance 1).emit .value
  | _ => do
    guard (s.inFlow || s.keyAllowed)
    let s := if s.inFlow then s else s.startBlock .blockMappingStart
    let s ← (s.allowKey !s.inFlow).dropCandidate
    return (s.advance 1).emit .value

/-- A token that may begin a key and after which none begins. -/
def wordToken (r : Reading Token) (s : Layout) : Except Fault Layout := do
  let s ← s.saveCandidate
  let (t, s) ← (s.allowKey false).readWith r
  return s.emit t

/-- A scalar without quotes. A key may begin after it if a line ended. -/
def plainToken (s : Layout) : Except Fault Layout := do
  let s ← s.saveCandidate
  let ((text, broken), s) ← s.readWith (Reading.plain s.inFlow (s.indent + 1))
  return (s.allowKey broken).emit (.scalar (text.map .char) true)

/-- A scalar in lines of its own, after which a key may begin. -/
def blockToken (folded : Bool) (s : Layout) : Except Fault Layout := do
  let s ← (s.allowKey true).dropCandidate
  let (text, s) ← s.readWith (Reading.block folded s.indent)
  return s.emit (.scalar (text.map .char) false)

/-- A name after its mark, as an alias or an anchor has one. -/
def nameToken (token : List Char → Token) : Reading Token := do
  Reading.skip
  let cs ← Reading.name
  Reading.expect fun c =>
    atWordEnd c || c.any fun c => ['?', ':', ',', ']', '}', '%', '@', '`'].contains c
  return token cs

/-- A mark between documents. -/
def documentMark (t : Token) : Reading Token := do
  Reading.skip 3
  return t

/-- A scalar between quotes. -/
def quotedToken (quote : Char) : Reading Token := do
  return .scalar (← Reading.quoted quote) false

/-- A tag. -/
def tagToken : Reading Token := do
  let (handle, address) ← Reading.tag
  return .tag handle address

/-- Whether a plain scalar may begin with a character. -/
def startsPlain (flow : Bool) (c : Char) (following : Option Char) : Bool :=
  !(atWordEnd (some c) || "-?:,[]{}#&*!|>'\"%@`".toList.contains c) ||
    (!atWordEnd following && (c == '-' || (!flow && (c == '?' || c == ':'))))

/-- Reads one more token, with the ends of collections before it. At the end
    of the text there is none, and the flag says so. -/
def fetch (s : Layout) : Except Fault (Bool × Layout) := do
  let s := s.toNextToken (s.cursor.rest.length + 1)
  let s ← s.dropLapsed
  -- What ends here has to be ended before the token that shows it.
  let s := if s.inFlow then s else s.endBlocks s.cursor.column
  let some c := s.cursor.peek 0 | return (true, ← s.endText)
  let following := s.cursor.peek 1
  let atStart := s.cursor.column == 0
  let mark := s.cursor.rest.take 3
  let markEnds := atWordEnd (s.cursor.peek 3)
  let next : Except Fault Layout :=
    if c == '%' && atStart then
      s.betweenDocuments do return .directive (← Reading.directive)
    else if atStart && mark == ['-', '-', '-'] && markEnds then
      s.betweenDocuments (documentMark .documentStart)
    else if atStart && mark == ['.', '.', '.'] && markEnds then
      s.betweenDocuments (documentMark .documentEnd)
    else if c == '[' then s.openFlow .flowSequenceStart
    else if c == '{' then s.openFlow .flowMappingStart
    else if c == ']' then s.closeFlow .flowSequenceEnd
    else if c == '}' then s.closeFlow .flowMappingEnd
    else if c == ',' then s.flowEntry
    else if c == '-' && atWordEnd following then s.blockEntry
    else if c == '?' && (s.inFlow || atWordEnd following) then s.explicitKey
    else if c == ':' && (s.inFlow || atWordEnd following) then s.valueMark
    else if c == '*' then s.wordToken (nameToken .alias)
    else if c == '&' then s.wordToken (nameToken .anchor)
    else if c == '!' then s.wordToken tagToken
    else if c == '|' && !s.inFlow then s.blockToken false
    else if c == '>' && !s.inFlow then s.blockToken true
    else if c == '\'' || c == '"' then s.wordToken (quotedToken c)
    else if startsPlain s.inFlow c following then s.plainToken
    else failure
  return (false, ← next)

/-- The tokens that no mark can come between any more: those in front of the
    first candidate that has not lapsed. -/
def settled (s : Layout) : List Token :=
  let places := (s.candidates.filterMap id).filterMap fun c =>
    if s.hasLapsed c then none else some c.before
  s.tokens.reverse.take (places.foldl min s.tokens.length)

/-- Reads tokens until the end of the text or its first fault. Every token
    takes at least one character, which bounds their number. -/
def fetchAll : Nat → Layout → List Token × Option Fault
  | 0, s => (s.settled, some .malformed)
  | fuel + 1, s =>
    match s.fetch with
    | .ok (true, s) => (s.tokens.reverse, none)
    | .ok (false, s) => fetchAll fuel s
    | .error f => (s.settled, some f)

end Layout

/-- The tokens of a text up to its end or its first fault, and the fault. A
    byte order mark at the start is skipped. -/
def tokensOf (text : List Char) : List Token × Option Fault :=
  let s := Layout.start text
  let s := if text.head? == some byteOrderMark then s.advance 1 else s
  s.fetchAll (text.length + 1)

end Yaml

end Abacus
