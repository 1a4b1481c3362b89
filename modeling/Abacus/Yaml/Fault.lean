import Abacus.Numeral.Free

/-!
# Faults of Documents

Why a text has no value as a document.

The form of a text can be wrong, so that there is no document, or a document can
hold something that has no value. In both cases all ways to be wrong are one
fault, as a reader of settings has no use for the difference. Apart from them,
something can be written like a value and be none. Most of these faults have
words of their own that are told to the user. The others concern scalars that
are not even written like the kind they are said to be of; they have no wording.

A fault stops the reading where it is found, so of two faults the one that is
met first counts.

## Main definitions

* `Fault`: Why a text has no value.
* `Fault.message?`: What is told to the user.
* `wholeOf`: A whole number, or what is wrong with it.
-/

namespace Abacus

namespace Yaml

/-- Why a text has no value. -/
inductive Fault where
  /-- The text is not in the form of a document. -/
  | malformed
  /-- Something in a document does not fit its kind or its place. -/
  | misfit
  /-- Something is written like a value and is none. -/
  | badValue (message : String)
  /-- A scalar that is said to be a truth value is not one of the words. -/
  | notASwitch (word : List Code)
  /-- A scalar that is said to be a day is not written like one. -/
  | notAStamp
  /-- A mapping stands for its default value where that has to be a day. -/
  | stampOfMapping
  /-- A scalar that is said to be a number is empty. -/
  | noDigits
  /-- A number is beyond what numbers of its kind can be. -/
  | tooLarge
  /-- The number of a character is beyond what such numbers can be. -/
  | codeTooLarge
  /-- The reading would have to go deeper than it can. -/
  | tooDeep
  deriving DecidableEq, Repr, Inhabited

/-- What is told to the user about a fault. -/
def Fault.message? : Fault → Option String
  | badValue message => some message
  | _ => none

/-- In a reading that can fail, the first fault counts, and what is not
    expected is malformed. -/
instance : Alternative (Except Fault) where
  failure := .error .malformed
  orElse x y :=
    match x with
    | .ok a => .ok a
    | .error _ => y ()

/-- A whole number that a document spells out. A half of a character is as
    little part of a number as a question mark is. -/
def wholeOf (base : Nat) (cs : List Code) : Except Fault Int :=
  match wholeNumber base (cs.map fun c => c.char?.getD '?') with
  | .ok n => .ok n
  | .error e => .error (.badValue (e.message base cs))

end Yaml

end Abacus
