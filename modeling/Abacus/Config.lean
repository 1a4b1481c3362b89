import Abacus.Arithmetic
import Abacus.Datum.Json
import Abacus.Numeral.Free

/-!
# Configuration

The two settings of a calculation and the check that raw values have to pass
to become settings.

A mapping is checked entry by entry, and every entry that is at fault is one
issue: no fault hides another. A setting that is absent takes its default. A
setting that is there with no value is at fault, since only an absent one asks
for the default.

The switch is generous in what it reads: truth values, the numbers zero and
one, and the usual words in any letter case. It tells a value of a kind that
is never a switch from one of a kind that could have been.

## Main definitions

* `Config`: The settings.
* `Issue`: A fault of one entry.
* `readPrecision`, `readSwitch`: A setting from a raw value.
* `Mapping.validate`: The settings of a mapping, or all its issues.
* `Datum.validate`: The same for any value.

## Theorems

* `Mapping.validate_nil`: Without entries all defaults hold.
* `Mapping.validate_eq_ok_iff`: A mapping is accepted exactly if it has no
  issues.
-/

namespace Abacus

/-- The settings of a calculation. -/
structure Config where
  precision : Precision := .f64
  implicitMul : Bool := true
  deriving DecidableEq, Repr, Inhabited

/-- The key of the precision. -/
def precisionKey : Scalar := .text "precision"

/-- The key of the switch for implied multiplications. -/
def implicitMulKey : Scalar := .text "implicit_mul"

/-- A fault of a value that was to become settings. -/
inductive Issue where
  /-- The value is no mapping. -/
  | notAMapping
  /-- The precision is not one of the two names. -/
  | notAPrecision
  /-- The switch is of a kind that can be read, but not one of the values that
      are. -/
  | unreadableSwitch
  /-- The switch is of a kind that is never read. -/
  | notASwitch
  /-- No setting has the name. -/
  | unknownKey (name : String)
  /-- A key is no text. -/
  | keyNotText (key : Scalar)
  /-- A key or the value under it is a broken text. -/
  | brokenText (key : Scalar)
  /-- A setting was to be changed in place. -/
  | frozen (name : String)
  deriving DecidableEq, Inhabited

/-- Bytes as a message shows them: as a quoted text in which all but the
    visible ASCII characters are escapes. -/
def shownBytes (bs : List UInt8) : List Char :=
  let cs := bs.map fun b => Char.ofNat b.toNat
  let mark := quoteMark cs
  let shown (c : Char) : List Char :=
    if c.toNat < 0x7f then escaped mark c else '\\' :: 'x' :: hexDigits 2 c.toNat
  'b' :: mark :: cs.flatMap shown ++ [mark]

/-- Whether a number is a whole number of 64 bits with a sign. -/
def isWord (n : Int) : Bool :=
  -0x8000000000000000 ≤ n && n < 0x8000000000000000

/-- A key as the place of an issue. Whole numbers of 64 bits, and truth values
    as the numbers zero and one, stay numbers; all else becomes a text. -/
def Scalar.place : Scalar → Scalar
  | null => .text "None"
  | bool b => .int (if b then 1 else 0)
  | int n => if isWord n then .int n else .text ((shownInt? n).getD "<unprintable int object>")
  | float v => .text (numberLabel v)
  | text s => .text s
  | brokenText t => .text t.shown
  | bytes bs => .text (String.ofList (shownBytes bs))
  | stamp s => .text s.shown

/-- The place of an issue: the key of the entry, if it is about one. -/
def Issue.place : Issue → Option Scalar
  | notAMapping => none
  | notAPrecision => some precisionKey
  | unreadableSwitch => some implicitMulKey
  | notASwitch => some implicitMulKey
  | unknownKey name => some (.text name)
  | keyNotText key => some key.place
  | brokenText key => some key.place
  | frozen name => some (.text name)

/-- The name of the kind of an issue. -/
def Issue.kindName : Issue → String
  | notAMapping => "model_type"
  | notAPrecision => "literal_error"
  | unreadableSwitch => "bool_parsing"
  | notASwitch => "bool_type"
  | unknownKey _ => "extra_forbidden"
  | keyNotText _ => "invalid_key"
  | brokenText _ => "string_unicode"
  | frozen _ => "frozen_instance"

/-- What an issue says. -/
def Issue.message : Issue → String
  | notAMapping => "Input should be a valid dictionary or instance of CalcConfig"
  | notAPrecision => "Input should be 'f64' or 'f32'"
  | unreadableSwitch => "Input should be a valid boolean, unable to interpret input"
  | notASwitch => "Input should be a valid boolean"
  | unknownKey _ => "Extra inputs are not permitted"
  | keyNotText _ => "Keys should be strings"
  | brokenText _ => "Input should be a valid string, unable to parse raw data as a unicode string"
  | frozen _ => "Instance is frozen"

/-- The precision of a raw value. -/
def readPrecision : Datum → Except Issue Precision
  | .scalar (.text s) =>
    match Precision.ofName? s with
    | some p => .ok p
    | none => .error .notAPrecision
  | .scalar (.brokenText _) => .error (.brokenText precisionKey)
  | _ => .error .notAPrecision

/-- The words for a switch that is off. -/
def offWords : List String := ["0", "off", "f", "false", "n", "no"]

/-- The words for a switch that is on. -/
def onWords : List String := ["1", "on", "t", "true", "y", "yes"]

/-- The switch of a word, in any case of its ASCII letters. -/
def readSwitchWord (s : String) : Except Issue Bool :=
  let word := s.map Char.toLower
  if offWords.contains word then .ok false
  else if onWords.contains word then .ok true
  else .error .unreadableSwitch

/-- The switch of a whole number. -/
def readSwitchNumber (n : Int) : Except Issue Bool :=
  if n = 0 then .ok false else if n = 1 then .ok true else .error .unreadableSwitch

/-- The whole number that a double is, if it is one and is of 64 bits; the
    least of these is excluded. -/
def wholeNumber? (v : Float) : Option Int :=
  let exact := Fraction.ofFloat v
  if v.isFinite && exact.num % exact.den == 0 && exact.num / exact.den < signBit then
    let magnitude : Int := exact.num / exact.den
    some (if hasSignBit v then -magnitude else magnitude)
  else none

/-- The switch of a raw value. Numbers are read if they are whole and of 64
    bits. -/
def readSwitch : Datum → Except Issue Bool
  | .scalar (.bool b) => .ok b
  | .scalar (.int n) =>
    if isWord n then readSwitchNumber n else .error .notASwitch
  | .scalar (.float v) =>
    match wholeNumber? v with
    | some n => readSwitchNumber n
    | none => .error .notASwitch
  | .scalar (.text s) => readSwitchWord s
  | .scalar (.brokenText _) => .error (.brokenText implicitMulKey)
  | .scalar (.bytes bs) => readSwitchWord (String.ofList (bs.map fun b => Char.ofNat b.toNat))
  | _ => .error .notASwitch

namespace Mapping

/-- A setting of a mapping: its raw value read, or the default. -/
def setting {α : Type} (m : Mapping) (key : Scalar) (fallback : α)
    (read : Datum → Except Issue α) : Except Issue α :=
  match m.get? key with
  | some d => read d
  | none => .ok fallback

/-- The precision that a mapping asks for. -/
def precision (m : Mapping) : Except Issue Precision :=
  m.setting precisionKey .f64 readPrecision

/-- The switch that a mapping asks for. -/
def implicitMul (m : Mapping) : Except Issue Bool :=
  m.setting implicitMulKey true readSwitch

/-- The issue of a key that is not the key of a setting. -/
def keyIssue? (key : Scalar) : Option Issue :=
  if key = precisionKey ∨ key = implicitMulKey then none
  else match key with
    | .text name => some (.unknownKey name)
    | .brokenText t => some (.brokenText (.brokenText t))
    | key => some (.keyNotText key)

/-- The issue of a setting. -/
def issueOf {α : Type} : Except Issue α → List Issue
  | .ok _ => []
  | .error i => [i]

/-- All issues of a mapping, one per entry at fault. -/
def issues (m : Mapping) : List Issue :=
  issueOf m.precision ++ issueOf m.implicitMul ++ m.filterMap fun entry => keyIssue? entry.1

/-- The settings of a mapping, or all its issues. -/
def validate (m : Mapping) : Except (List Issue) Config :=
  -- The issues decide; the two settings are there whenever there are none.
  match m.precision, m.implicitMul, m.issues with
  | .ok p, .ok b, [] => .ok ⟨p, b⟩
  | _, _, found => .error found

theorem validate_nil : validate [] = .ok {} := rfl

theorem validate_eq_ok_iff (m : Mapping) : (∃ c, m.validate = .ok c) ↔ m.issues = [] := by
  constructor
  · rintro ⟨c, h⟩
    simp only [validate] at h
    split at h
    · next hi => exact hi
    · simp only [reduceCtorEq] at h
  · intro h
    have hp : ∃ p, m.precision = .ok p := by
      cases hp : m.precision with
      | ok p => exact ⟨p, rfl⟩
      | error i => simp [issues, hp, issueOf] at h
    have hb : ∃ b, m.implicitMul = .ok b := by
      cases hb : m.implicitMul with
      | ok b => exact ⟨b, rfl⟩
      | error i => simp [issues, hb, issueOf] at h
    rcases hp with ⟨p, hp⟩
    rcases hb with ⟨b, hb⟩
    exact ⟨⟨p, b⟩, by simp only [validate, hp, hb, h]⟩

end Mapping

/-- The settings of any value, or its issues. -/
def Datum.validate : Datum → Except (List Issue) Config
  | .map entries => Mapping.validate entries
  | _ => .error [.notAMapping]

end Abacus
