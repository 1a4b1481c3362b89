import Abacus.Yaml.Resolve
import Abacus.Yaml.Token

/-!
# The Graph of a Document

From tokens to the graph of a document: scalars, sequences and mappings, each
with its kind. A node is known by its place in the graph, so an alias is just
another mention of the node that its anchor names, and a collection can hold
itself.

An anchor is known from where it stands, and every anchor stands for one node
only. A text holds at most one document. The empty text holds none.

The tokens may break off at a fault of the text. It counts as soon as the
token is looked for that would have come next, and not before: what is wrong
with the tokens in front of it is found first.

The recursion follows the nesting of the collections and the number of their
entries. Every step into either takes a token, or stands between two steps
that do, which bounds it.

## Main definitions

* `Content`: What a node holds.
* `Node`: A node and its kind.
* `Graph`: The nodes of a document.
* `Composing`: The tokens that are left and what is known so far.
* `Composing.node`: The next node.
* `Document`: A graph and its root.
* `Document.ofTokens`: The one document of a list of tokens.
-/

namespace Abacus

namespace Yaml

/-- What a node holds. The parts of a collection are nodes of the graph. -/
inductive Content where
  | scalar (text : List Code)
  | sequence (items : List Nat)
  | mapping (entries : List (Nat × Nat))
  deriving DecidableEq, Repr, Inhabited

/-- A node and its kind, which need not fit what it holds. -/
structure Node where
  tag : Tag
  content : Content
  deriving DecidableEq, Repr, Inhabited

/-- The nodes of a document, each known by its place. -/
abbrev Graph := Array Node

/-- The state of the reading of a graph: the tokens that are left and the
    fault behind them, the nodes so far, the nodes that anchors name, and the
    handles that tags may have. -/
structure Composing where
  tokens : List Token
  fault : Option Fault
  graph : Graph
  anchors : List (List Char × Nat)
  handles : List (List Char × List Char)
  deriving Inhabited

namespace Composing

/-- A step of the reading of a graph. -/
abbrev Step (α : Type) := StateT Composing (Except Fault) α

/-- The next token without reading it. Where the tokens break off, the fault
    behind them counts. -/
def peek : Step (Option Token) := do
  let s ← get
  match s.tokens, s.fault with
  | t :: _, _ => return some t
  | [], some f => throw f
  | [], none => return none

/-- Goes over the next token. -/
def skip : Step Unit :=
  modify fun s => { s with tokens := s.tokens.drop 1 }

/-- Goes over the next token, which has to pass a test. -/
def expect (p : Token → Bool) : Step Unit := do
  guard ((← peek).any p)
  skip

/-- Puts a node into the graph and remembers the anchor that names it. -/
def add (anchor : Option (List Char)) (n : Node) : Step Nat := do
  let s ← get
  let place := s.graph.size
  let anchors :=
    match anchor with
    | some name => (name, place) :: s.anchors
    | none => s.anchors
  set { s with graph := s.graph.push n, anchors := anchors }
  return place

/-- Puts something else into the place of a node. -/
def replace (place : Nat) (n : Node) : Step Unit :=
  modify fun s => { s with graph := s.graph.setIfInBounds place n }

/-- An empty scalar, which stands where a value is left out. -/
def absent : Step Nat :=
  add none ⟨.null, .scalar []⟩

/-- The anchor and the tag in front of a value, in either order. -/
def properties : Step (Option (List Char) × Option (Option (List Char) × List Char)) := do
  match ← peek with
  | some (.anchor name) =>
    skip
    match ← peek with
    | some (.tag h a) =>
      skip
      return (some name, some (h, a))
    | _ => return (some name, none)
  | some (.tag h a) =>
    skip
    match ← peek with
    | some (.anchor name) =>
      skip
      return (some name, some (h, a))
    | _ => return (none, some (h, a))
  | _ => return (none, none)

/-- The full address of a tag. -/
def fullAddress : Option (Option (List Char) × List Char) → Step (Option (List Char))
  | none => return none
  | some (none, a) => return some a
  | some (some h, a) => do
    let some start := (← get).handles.lookup h | failure
    return some (start ++ a)

/-- Whether an address leaves the kind of a value open. -/
def isOpen (address : Option (List Char)) : Bool :=
  address.all (· == ['!'])

/-- The kind of a scalar. A text in quotes is a text, unless a lone
    exclamation mark asks for its reading. -/
def scalarTag (address : Option (List Char)) (text : List Code) (plain : Bool) : Tag :=
  match address with
  | none => if plain then .ofPlain text else .text
  | some a => if a == ['!'] then .ofPlain text else .ofAddress a

/-- The kind of a collection. -/
def collectionTag (address : Option (List Char)) (usual : Tag) : Tag :=
  if isOpen address then usual else address.elim usual .ofAddress

/-- The value after an anchor or a tag that nothing follows. -/
def leftOut (anchor address : Option (List Char)) : Step Nat := do
  guard (anchor.isSome || address.isSome)
  add anchor ⟨if isOpen address then .ofPlain [] else address.elim .null .ofAddress, .scalar []⟩

/-- A sequence, which is in the graph while its items are read. -/
def sequence (anchor address : Option (List Char)) (items : Step (List Nat)) : Step Nat := do
  let tag := collectionTag address .sequence
  -- The anchor counts for the items already, so a sequence may contain itself.
  let place ← add anchor ⟨tag, .sequence []⟩
  replace place ⟨tag, .sequence (← items)⟩
  return place

/-- A mapping, which is in the graph while its entries are read. -/
def mapping (anchor address : Option (List Char)) (entries : Step (List (Nat × Nat))) :
    Step Nat := do
  let tag := collectionTag address .mapping
  let place ← add anchor ⟨tag, .mapping []⟩
  replace place ⟨tag, .mapping (← entries)⟩
  return place

/-- Whether an entry of a block sequence has no value of its own. -/
def endsEntry : Option Token → Bool
  | some .blockEntry => true
  | some .key => true
  | some .value => true
  | some .blockEnd => true
  | _ => false

/-- Whether an entry of an indented block sequence has no value of its own. -/
def endsItem : Option Token → Bool
  | some .blockEntry => true
  | some .blockEnd => true
  | _ => false

/-- Whether a key or a value of a block mapping is left out. -/
def endsPart : Option Token → Bool
  | some .key => true
  | some .value => true
  | some .blockEnd => true
  | _ => false

/-- Whether a key or a value of a flow collection is left out. -/
def endsFlowPart : Option Token → Bool
  | some .value => true
  | some .flowEntry => true
  | some .flowSequenceEnd => true
  | some .flowMappingEnd => true
  | _ => false

mutual

/-- The next node. Block collections may stand only where `block` holds, and a
    block sequence without an indentation of its own only where `flush`
    holds. -/
def node (block flush : Bool) : Nat → Step Nat
  | 0 => failure
  | fuel + 1 => do
    match ← peek with
    | some (.alias name) =>
      -- An alias is the node that it names and not a copy of it.
      skip
      let some place := (← get).anchors.lookup name | failure
      return place
    | _ =>
      let (anchor, written) ← properties
      let address ← fullAddress written
      let next ← peek
      -- A document gives each name once.
      if let some name := anchor then guard ((← get).anchors.lookup name).isNone
      match next with
      | some (.scalar text plain) =>
        skip
        add anchor ⟨scalarTag address text plain, .scalar text⟩
      | some .blockEntry =>
        if flush then sequence anchor address (flushItems fuel) else leftOut anchor address
      | some .flowSequenceStart =>
        skip
        sequence anchor address (flowItems true fuel)
      | some .flowMappingStart =>
        skip
        mapping anchor address (flowEntries true fuel)
      | some .blockSequenceStart =>
        if block then
          skip
          sequence anchor address (blockItems fuel)
        else leftOut anchor address
      | some .blockMappingStart =>
        if block then
          skip
          mapping anchor address (blockEntries fuel)
        else leftOut anchor address
      | _ => leftOut anchor address

/-- The items of an indented block sequence up to its end. -/
def blockItems : Nat → Step (List Nat)
  | 0 => failure
  | fuel + 1 => do
    match ← peek with
    | some .blockEntry =>
      skip
      let n ← if endsItem (← peek) then absent else node true false fuel
      return n :: (← blockItems fuel)
    | _ =>
      expect fun t => t matches .blockEnd
      return []

/-- The items of a block sequence at the indentation of the mapping around it,
    which has no end of its own. -/
def flushItems : Nat → Step (List Nat)
  | 0 => failure
  | fuel + 1 => do
    match ← peek with
    | some .blockEntry =>
      skip
      let n ← if endsEntry (← peek) then absent else node true false fuel
      return n :: (← flushItems fuel)
    | _ => return []

/-- The entries of a block mapping up to its end. Either part of an entry may
    be left out, but not both. -/
def blockEntries : Nat → Step (List (Nat × Nat))
  | 0 => failure
  | fuel + 1 => do
    match ← peek with
    | some .key =>
      skip
      let k ← if endsPart (← peek) then absent else node true true fuel
      let v ← blockValue fuel
      return (k, v) :: (← blockEntries fuel)
    | _ =>
      expect fun t => t matches .blockEnd
      return []

/-- The value of an entry of a block mapping. -/
def blockValue : Nat → Step Nat
  | 0 => failure
  | fuel + 1 => do
    match ← peek with
    | some .value =>
      skip
      if endsPart (← peek) then absent else node true true fuel
    | _ => absent

/-- The items of a flow sequence up to its end. An item that is a key with its
    value is a mapping of one entry. -/
def flowItems (first : Bool) : Nat → Step (List Nat)
  | 0 => failure
  | fuel + 1 => do
    if (← peek) matches some .flowSequenceEnd then
      skip
      return []
    if !first then expect fun t => t matches .flowEntry
    match ← peek with
    | some .flowSequenceEnd =>
      -- A comma may stand behind the last item.
      skip
      return []
    | some .key =>
      skip
      let k ← if endsFlowPart (← peek) then absent else node false false fuel
      let v ← flowValue fuel
      let n ← add none ⟨.mapping, .mapping [(k, v)]⟩
      return n :: (← flowItems false fuel)
    | _ =>
      let n ← node false false fuel
      return n :: (← flowItems false fuel)

/-- The entries of a flow mapping up to its end. An item without a mark is a
    key whose value is left out. -/
def flowEntries (first : Bool) : Nat → Step (List (Nat × Nat))
  | 0 => failure
  | fuel + 1 => do
    if (← peek) matches some .flowMappingEnd then
      skip
      return []
    if !first then expect fun t => t matches .flowEntry
    match ← peek with
    | some .flowMappingEnd =>
      -- A comma may stand behind the last entry.
      skip
      return []
    | some .key =>
      skip
      let k ← if endsFlowPart (← peek) then absent else node false false fuel
      let v ← flowValue fuel
      return (k, v) :: (← flowEntries false fuel)
    | _ =>
      let k ← node false false fuel
      let v ← absent
      return (k, v) :: (← flowEntries false fuel)

/-- The value of an entry of a flow collection. -/
def flowValue : Nat → Step Nat
  | 0 => failure
  | fuel + 1 => do
    match ← peek with
    | some .value =>
      skip
      if endsFlowPart (← peek) then absent else node false false fuel
    | _ => absent

end

/-- The handles that every document has. -/
def usualHandles : List (List Char × List Char) :=
  [(['!'], ['!']), (['!', '!'], Tag.home)]

/-- The directives in front of a document, up to the first token that is none.
    There may be one version, which has to be of the first kind, and every
    handle may be given once. -/
def directives (versionSeen : Bool) (given : List (List Char × List Char)) : Nat → Step Unit
  | 0 => failure
  | fuel + 1 => do
    match ← peek with
    | some (.directive d) =>
      skip
      match d with
      | .version major =>
        guard (!versionSeen && major == 1)
        directives true given fuel
      | .handle h a =>
        guard (given.lookup h).isNone
        directives versionSeen ((h, a) :: given) fuel
      | .other => directives versionSeen given fuel
    | _ => modify fun s => { s with handles := given ++ usualHandles }

/-- Goes over the marks that end a document. -/
def skipEnds : Nat → Step Unit
  | 0 => failure
  | fuel + 1 => do
    if (← peek) matches some .documentEnd then
      skip
      skipEnds fuel

/-- Whether the content of a document is left out. -/
def endsDocument : Option Token → Bool
  | none => true
  | some .documentEnd => true
  | some .documentStart => true
  | some (.directive _) => true
  | _ => false

/-- The root of the one document, if there is a document. Behind it only marks
    that end it may stand: whatever else is there is malformed, with the
    directives in front of it read before. -/
def root (fuel : Nat) : Step (Option Nat) := do
  let first ← peek
  if first.isNone then return none
  let isExplicit :=
    match first with
    | some (.directive _) => true
    | some .documentStart => true
    | _ => false
  if isExplicit then
    directives false [] fuel
    expect fun t => t matches .documentStart
  -- Only a document with a mark in front of it may be empty.
  let place ← if isExplicit && endsDocument (← peek) then absent else node true false fuel
  skipEnds fuel
  if (← peek).isSome then
    directives false [] fuel
    expect fun _ => false
  return some place

end Composing

/-- A graph and the place of its root, if it has one. -/
structure Document where
  graph : Graph
  root : Option Nat
  deriving DecidableEq, Repr, Inhabited

namespace Document

/-- The one document of a list of tokens, behind which there may be a
    fault. -/
def ofTokens (tokens : List Token) (fault : Option Fault) : Except Fault Document := do
  let fuel := 4 * tokens.length + 4
  let (place, s) ← (Composing.root fuel).run ⟨tokens, fault, #[], [], Composing.usualHandles⟩
  return ⟨s.graph, place⟩

end Document

end Yaml

end Abacus
