import Abacus.Datum.Key
import Abacus.Yaml.Base64
import Abacus.Yaml.Graph

/-!
# Values of Documents

The value of a text in the format of the settings file.

What is inside the outermost collection is shown in outline: a scalar is shown
by its value, and a collection only by its kind, as an empty one. This is all
that settings need, and it lets a collection hold itself.

All nodes are looked into nevertheless, since anything that is wrong anywhere
is a fault. The scalars of a collection are read when the collection is looked
into. The collections in it wait until those that were met before them are
done, each of them once, however often it is mentioned.

Keys have to be scalars. A key that is there already gets the later value, and
keys that are equal as numbers or as moments are the same key. A number that
is not even equal to itself is the same key only if it is mentioned again.

The mapping of a merge key lies under the mapping it stands in, and of several
such mappings the first counts most. The merge keys of a mapping are resolved
for good just before it is looked into. A mapping with a default value can
stand where a scalar is asked for.

## Main definitions

* `Outline`: The state of looking into a document.
* `Outline.flatten`: Resolves the merge keys of a mapping.
* `Outline.visit`: The outline of a node.
* `Outline.lookInto`: The outline of a collection with its parts.
* `Document.ofText`: The document of a text.
* `Document.value`: The outline of a document.
-/

namespace Abacus

namespace Yaml

/-- A key with the place of the node that mentions it. -/
structure Key where
  scalar : Scalar
  place : Nat

/-- Whether two keys are the same: as scalars, or because both are one
    mention. -/
def Key.same (a b : Key) : Bool :=
  a.place == b.place || a.scalar.sameKey b.scalar

/-- Puts a value under a key, in place of the value of the same key. -/
def putEntry (key : Key) (value : Datum) : List (Key × Datum) → List (Key × Datum)
  | [] => [(key, value)]
  | (k, d) :: rest =>
    if k.same key then (k, value) :: rest else (k, d) :: putEntry key value rest

/-- The bytes that a scalar is read as, which may have ASCII characters only. -/
def bytesOfText? (cs : List Code) : Option (List UInt8) := do
  let cs ← chars? cs
  if cs.all fun c => c.toNat < 128 then base64Bytes [] 0 cs else none

/-- The value of a scalar of a kind. -/
def scalarValue (tag : Tag) (text : List Code) : Except Fault Scalar :=
  match tag with
  | .null => .ok .null
  | .bool => (boolOfText text).map .bool
  | .int => (intOfText text).map .int
  | .float => (floatOfText text).map .float
  | .stamp => (stampOfText text).map .stamp
  | .text => .ok (.ofCodes text)
  | .binary =>
    match bytesOfText? text with
    | some bytes => .ok (.bytes bytes)
    | none => .error .misfit
  | _ => .error .misfit

/-- The state of looking into a document: its graph, in which merge keys are
    resolved one by one, and the collections that were met, in their order. -/
structure Outline where
  graph : Graph
  isMet : Array Bool
  met : Array Nat
  deriving Inhabited

namespace Outline

/-- A step of looking into a document. -/
abbrev Step (α : Type) := StateT Outline (Except Fault) α

/-- A document that was not looked into. -/
def start (graph : Graph) : Outline :=
  ⟨graph, Array.replicate graph.size false, #[]⟩

/-- The node at a place. -/
def nodeAt (place : Nat) : Step Node := do
  let some n := (← get).graph[place]? | throw .misfit
  return n

/-- Puts another node into a place. -/
def replace (place : Nat) (n : Node) : Step Unit :=
  modify fun s => { s with graph := s.graph.setIfInBounds place n }

/-- The entries of the mapping at a place. -/
def entriesAt (place : Nat) : Step (List (Nat × Nat)) := do
  match (← nodeAt place).content with
  | .mapping entries => return entries
  | _ => throw .misfit

/-- Gives other entries to the mapping at a place. -/
def setEntries (place : Nat) (entries : List (Nat × Nat)) : Step Unit := do
  replace place { ← nodeAt place with content := .mapping entries }

/-- How many entries all mappings have together, which bounds how far merge
    keys can lead. -/
def entryCount (graph : Graph) : Nat :=
  graph.foldl (fun n node =>
    match node.content with
    | .mapping entries => n + entries.length
    | _ => n) 0

/-- The entries that the value of a merge key brings in, once its own merge
    keys are resolved: those of a mapping, or those of several mappings, of
    which later ones lie under earlier ones. -/
def broughtIn (resolve : Nat → Step Unit) (place : Nat) : Step (List (Nat × Nat)) := do
  let entriesOf (place : Nat) : Step (List (Nat × Nat)) := do
    let _ ← entriesAt place
    resolve place
    entriesAt place
  match (← nodeAt place).content with
  | .mapping _ => entriesOf place
  | .sequence items => return (← items.mapM entriesOf).reverse.flatten
  | .scalar _ => throw .misfit

/-- Resolves the merge keys among the last entries of a mapping, where `own`
    are the other entries before, the latest in front, and `brought` is what
    was brought in. -/
def flattenEntries (resolve : Nat → Step Unit) (place : Nat) (own brought : List (Nat × Nat)) :
    List (Nat × Nat) → Step Unit
  | [] => setEntries place (brought ++ own.reverse)
  | (k, v) :: rest => do
    let key ← nodeAt k
    match key.tag with
    | .merge =>
      -- A mapping can bring itself in, without the key that does so.
      setEntries place (own.reverse ++ rest)
      flattenEntries resolve place own (brought ++ (← broughtIn resolve v)) rest
    | .value =>
      -- The mark of a default value is a text where it is a key.
      replace k { key with tag := .text }
      flattenEntries resolve place ((k, v) :: own) brought rest
    | _ => flattenEntries resolve place ((k, v) :: own) brought rest

/-- Resolves the merge keys of the mapping at a place, following at most so
    many of them in a row. -/
def flatten : Nat → Nat → Step Unit
  | 0, _ => throw .misfit
  | fuel + 1, place => do flattenEntries (flatten fuel) place [] [] (← entriesAt place)

/-- The text of a node where a scalar is asked for: its own, or that of its
    default value. A default value that leads back to itself has none. -/
def textAt : Nat → Nat → Step (List Code)
  | 0, _ => throw .tooDeep
  | fuel + 1, place => do
    match (← nodeAt place).content with
    | .scalar text => return text
    | .sequence _ => throw .misfit
    | .mapping entries =>
      let graph := (← get).graph
      let isDefault (entry : Nat × Nat) : Bool := graph[entry.1]?.any fun k => k.tag == .value
      let some entry := entries.find? isDefault | throw .misfit
      textAt fuel entry.2

/-- The scalar at a place, of a kind. -/
def scalarAt (tag : Tag) (place : Nat) : Step Scalar := do
  let text ← textAt ((← get).graph.size + 1) place
  match tag, (← nodeAt place).content with
  | .stamp, .mapping _ => throw .stampOfMapping
  | _, _ => scalarValue tag text

/-- Notes that a collection was met. -/
def meet (place : Nat) : Step Unit :=
  modify fun s =>
    if s.isMet.getD place true then s
    else { s with isMet := s.isMet.setIfInBounds place true, met := s.met.push place }

/-- The outline of a node, in which a collection is empty. -/
def visit (place : Nat) : Step Datum := do
  let tag := (← nodeAt place).tag
  match tag with
  | .sequence =>
    meet place
    return .list []
  | .pairs =>
    meet place
    return .list []
  | .mapping =>
    meet place
    return .map []
  | .set =>
    meet place
    return .set []
  | tag => return .scalar (← scalarAt tag place)

/-- The outline of a mapping of one entry as a pair. -/
def visitPair (place : Nat) : Step Datum := do
  let [(k, v)] ← entriesAt place | throw .misfit
  let key ← visit k
  return .list [key, ← visit v]

/-- The key at a place, which has to be a scalar. All mentions of the plain
    word for the value that is no number are one. -/
def keyAt (place : Nat) : Step Key := do
  let .scalar s ← visit place | throw .misfit
  let node ← nodeAt place
  match node.tag, s with
  | .float, .float _ =>
    let graph := (← get).graph
    let isWord := isNanWord (← textAt (graph.size + 1) place)
    return ⟨s, if isWord then graph.size else place⟩
  | _, _ => return ⟨s, place⟩

/-- The entries of the mapping at a place, its merge keys resolved. -/
def visitEntries (place : Nat) : Step (List (Key × Datum)) := do
  let _ ← entriesAt place
  flatten (entryCount (← get).graph + 1) place
  (← entriesAt place).foldlM
    (fun entries entry => do
      let key ← keyAt entry.1
      let value ← visit entry.2
      return putEntry key value entries)
    []

/-- The outline of the collection at a place, with its parts. -/
def lookInto (place : Nat) : Step Datum := do
  let node ← nodeAt place
  match node.tag, node.content with
  | .sequence, .sequence items => return .list (← items.mapM visit)
  | .pairs, .sequence items => return .list (← items.mapM visitPair)
  | .mapping, _ => return .map ((← visitEntries place).map fun e => (e.1.scalar, e.2))
  | .set, _ => return .set ((← visitEntries place).map fun e => e.1.scalar)
  | _, _ => throw .misfit

/-- Looks into the collections that were met, from the one with the given
    number on, until none waits. -/
def lookIntoRest : Nat → Nat → Step Unit
  | 0, _ => throw .misfit
  | fuel + 1, i => do
    match (← get).met[i]? with
    | some place =>
      discard (lookInto place)
      lookIntoRest fuel (i + 1)
    | none => return

/-- The outline of a document with its root at a place. -/
def ofRoot (place : Nat) : Step Datum := do
  let d ← visit place
  if (← get).met.isEmpty then return d
  let d ← lookInto place
  -- Every node is met once at most.
  lookIntoRest ((← get).graph.size + 1) 1
  return d

end Outline

/-- The outline of a document. A document that is missing stands for no
    value. -/
def Document.value (d : Document) : Except Fault Datum :=
  match d.root with
  | none => .ok .null
  | some place => (Outline.ofRoot place).run' (Outline.start d.graph)

/-- Whether a character may occur in a document. -/
def isReadable (c : Char) : Bool :=
  let n := c.toNat
  n == 0x09 || n == 0x0a || n == 0x0d || (0x20 ≤ n && n ≤ 0x7e) || n == 0x85 ||
    (0xa0 ≤ n && n ≤ 0xd7ff) || (0xe000 ≤ n && n ≤ 0xfffd) || (0x10000 ≤ n && n ≤ 0x10ffff)

/-- A text in which every line that ends with a carriage return, alone or with
    a line feed, ends with a line feed. -/
def plainBreaks : List Char → List Char
  | '\r' :: '\n' :: rest => '\n' :: plainBreaks rest
  | '\r' :: rest => '\n' :: plainBreaks rest
  | c :: rest => c :: plainBreaks rest
  | [] => []

/-- The document of a text. -/
def Document.ofText (text : List Char) : Except Fault Document :=
  if text.all isReadable then
    let (tokens, fault) := tokensOf (plainBreaks text)
    ofTokens tokens fault
  else .error .malformed

end Yaml

end Abacus
