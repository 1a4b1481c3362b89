import Abacus.Datum

/-!
# Data as JSON

The text of a value on one line: entries sorted by key, a blank after each
comma and colon, and ASCII only, with all other characters written as units of
sixteen bits. Numbers that are not finite are written as words, which readers
of this format commonly accept.

## Main definitions

* `jsonEscaped`: One character inside a JSON text.
* `jsonText`: A text between quotes.
* `Datum.json`: A value.
-/

namespace Abacus

/-- One unit of sixteen bits as an escape. -/
def jsonUnit (n : Nat) : List Char :=
  '\\' :: 'u' :: hexDigits 4 n

/-- One character inside a JSON text. A character beyond sixteen bits is
    written as two units. -/
def jsonEscaped (c : Char) : List Char :=
  if c = '"' ∨ c = '\\' then ['\\', c]
  else if 0x20 ≤ c.toNat ∧ c.toNat ≤ 0x7e then [c]
  else if c = '\n' then ['\\', 'n']
  else if c = '\r' then ['\\', 'r']
  else if c = '\t' then ['\\', 't']
  else if c.toNat = 8 then ['\\', 'b']
  else if c.toNat = 12 then ['\\', 'f']
  else if c.toNat < 0x10000 then jsonUnit c.toNat
  else
    let n := c.toNat - 0x10000
    jsonUnit (0xd800 + n / 0x400) ++ jsonUnit (0xdc00 + n % 0x400)

/-- A text between quotes. -/
def jsonText (s : String) : String :=
  String.ofList ('"' :: s.toList.flatMap jsonEscaped ++ ['"'])

/-- One code inside a JSON text. A half of a character is a unit by itself. -/
def Code.jsonEscaped : Code → List Char
  | char c => Abacus.jsonEscaped c
  | half n => jsonUnit (firstHalf + n)

/-- A broken text between quotes. -/
def BrokenText.json (t : BrokenText) : String :=
  String.ofList ('"' :: t.codes.flatMap Code.jsonEscaped ++ ['"'])

/-- A number; those that are not finite are written as words. -/
def jsonFloat (v : Float) : String :=
  if v.isFinite then numberLabel v
  else if v.isNaN then "NaN"
  else if hasSignBit v then "-Infinity"
  else "Infinity"

/-- A scalar as JSON; kinds that JSON does not have are written as texts. -/
def Scalar.json : Scalar → String
  | .null => "null"
  | .bool b => if b then "true" else "false"
  | .int n => toString n
  | .float v => jsonFloat v
  | .text s => jsonText s
  | .brokenText t => t.json
  | .bytes bs => jsonText (String.ofList (bs.map fun b => Char.ofNat b.toNat))
  | .stamp s => jsonText s.shown

/-- The text that a key becomes in JSON, where all keys are texts of
    characters. -/
def Scalar.keyText : Scalar → String
  | .text s => s
  | .brokenText t => t.shown
  | s => s.json

/-- Texts with a comma and a blank between them. -/
def commaSeparated (parts : List String) : String :=
  String.intercalate ", " parts

/-- Entries sorted by their keys. -/
def sortedByKey (entries : List (String × String)) : List (String × String) :=
  entries.mergeSort fun a b => decide (a.1 ≤ b.1)

mutual

/-- A value as JSON. -/
def Datum.json : Datum → String
  | .scalar s => s.json
  | .list items => "[" ++ commaSeparated (Datum.jsonItems items) ++ "]"
  | .map entries =>
    let sorted := sortedByKey (Datum.jsonEntries entries)
    "\x7b" ++ commaSeparated (sorted.map fun entry =>
      jsonText entry.1 ++ ": " ++ entry.2) ++ "\x7d"
  | .set members => "[" ++ commaSeparated (members.map Scalar.json) ++ "]"

/-- The items of a list as JSON. -/
def Datum.jsonItems : List Datum → List String
  | [] => []
  | d :: rest => d.json :: Datum.jsonItems rest

/-- The keys of a mapping and their values as JSON. -/
def Datum.jsonEntries : List (Scalar × Datum) → List (String × String)
  | [] => []
  | (k, d) :: rest => (k.keyText, d.json) :: Datum.jsonEntries rest

end

end Abacus
