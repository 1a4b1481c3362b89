import Abacus.Datum.Stamp
import Abacus.Decimal.Layout
import Abacus.Text.Quoted

/-!
# Data

The values that settings come as before anything is known about them: scalars,
lists, mappings and sets, as a document or a command line gives them.

Only scalars can be keys or members. A mapping keeps its entries in the order
in which their keys first came up, and putting a value under a key that is
there already replaces the old value in its place.

A text with halves of characters in it is a scalar of its own, since it is no
text of characters.

## Main definitions

* `Scalar`: A value without parts.
* `Scalar.ofCodes`: The text that codes are.
* `Datum`: A scalar, a list, a mapping or a set.
* `Mapping`: Entries in the order of their keys' first appearance.
* `Mapping.get?`, `Mapping.insert`: The value of a key, and its replacement.
* `Mapping.merge`: A mapping with another laid over it, whose nulls count as
  absent.

## Theorems

* `Mapping.get?_insert`: What is put under a key is found there, and all other
  keys keep their values.
-/

namespace Abacus

/-- A value without parts. -/
inductive Scalar where
  | null
  | bool (b : Bool)
  | int (n : Int)
  | float (v : Float)
  | text (s : String)
  | brokenText (t : BrokenText)
  | bytes (bs : List UInt8)
  | stamp (s : Stamp)
  deriving DecidableEq, Inhabited

/-- The text that codes are, which is broken if there are halves among them. -/
def Scalar.ofCodes (cs : List Code) : Scalar :=
  match h : chars? cs with
  | some s => text (String.ofList s)
  | none => brokenText ⟨cs, h⟩

/-- A value as settings come before they are checked. -/
inductive Datum where
  | scalar (s : Scalar)
  | list (items : List Datum)
  | map (entries : List (Scalar × Datum))
  | set (members : List Scalar)
  deriving Inhabited

/-- Entries in the order of their keys' first appearance. -/
abbrev Mapping := List (Scalar × Datum)

namespace Datum

/-- The value that stands for no value. -/
def null : Datum := scalar .null

/-- A truth value. -/
def bool (b : Bool) : Datum := scalar (.bool b)

/-- A text. -/
def text (s : String) : Datum := scalar (.text s)

/-- Whether a value stands for no value. -/
def isNull : Datum → Bool
  | scalar .null => true
  | _ => false

/-- Whether a value counts as empty: no value, the false truth value, the
    zeros, and everything without content. -/
def isEmpty : Datum → Bool
  | scalar .null => true
  | scalar (.bool b) => !b
  | scalar (.int n) => n == 0
  | scalar (.float v) => v == 0
  | scalar (.text s) => s.isEmpty
  | scalar (.brokenText _) => false
  | scalar (.bytes bs) => bs.isEmpty
  | scalar (.stamp _) => false
  | list items => items.isEmpty
  | map entries => entries.isEmpty
  | set members => members.isEmpty

/-- The name of the kind of a value. -/
def kindName : Datum → String
  | scalar .null => "NoneType"
  | scalar (.bool _) => "bool"
  | scalar (.int _) => "int"
  | scalar (.float _) => "float"
  | scalar (.text _) => "str"
  | scalar (.brokenText _) => "str"
  | scalar (.bytes _) => "bytes"
  | scalar (.stamp s) => if s.time.isSome then "datetime" else "date"
  | list _ => "list"
  | map _ => "dict"
  | set _ => "set"

end Datum

namespace Mapping

/-- The value of a key. -/
def get? (key : Scalar) : Mapping → Option Datum
  | [] => none
  | (k, d) :: rest => if k = key then some d else get? key rest

/-- Puts a value under a key: in place of the old value, or at the end. -/
def insert (key : Scalar) (value : Datum) : Mapping → Mapping
  | [] => [(key, value)]
  | (k, d) :: rest => if k = key then (k, value) :: rest else (k, d) :: insert key value rest

/-- Lays a mapping over another. Values of the upper one replace those below,
    except that no value counts as no entry. -/
def merge (base : Mapping) : Mapping → Mapping
  | [] => base
  | (k, d) :: rest => merge (if d.isNull then base else insert k d base) rest

theorem get?_insert (key other : Scalar) (value : Datum) (m : Mapping) :
    get? other (insert key value m) = if key = other then some value else get? other m := by
  induction m with
  | nil => simp only [insert, get?]
  | cons entry rest ih =>
    rcases entry with ⟨k, d⟩
    simp only [insert]
    by_cases hk : k = key
    · rw [if_pos hk]
      simp only [get?, hk]
      by_cases ho : key = other
      · simp only [if_pos ho]
      · simp only [if_neg ho]
    · rw [if_neg hk]
      simp only [get?, ih]
      by_cases ho : k = other
      · have hne : ¬ key = other := fun h => hk (ho.trans h.symm)
        simp only [if_pos ho, if_neg hne]
      · simp only [if_neg ho]

end Mapping

end Abacus
