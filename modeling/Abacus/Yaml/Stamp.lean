import Abacus.Datum.Stamp
import Abacus.Yaml.Fault

/-!
# Days and Times in a Document

Scalars that are written like a day, or like a day with a time of day, stand
for one. A scalar that is not said to be a day has to have two digits each for
month and day, unless a time follows.

A text that is written like a day can still be none, because there is no such
month or no such day in the month; this is a fault of the value and not of the
document's form.

## Main definitions

* `stampOf?`: The parts of a text that is written like a day.
* `stampFault?`: What is wrong with the parts.
* `checkedStamp`: The stamp of parts that are right.
-/

namespace Abacus

namespace Yaml

/-- Reads between `least` and `most` digits, as many as there are. -/
def takeDigits? (least most : Nat) (cs : List Char) : Option (Nat × List Char) :=
  let ds := (cs.take most).takeWhile Char.isDigit
  if least ≤ ds.length then some (digitsValue ds, cs.drop ds.length) else none

/-- Goes over one character that has to be there. -/
def skipChar? (c : Char) : List Char → Option (List Char)
  | d :: rest => if c = d then some rest else none
  | [] => none

/-- Whether a character is a space or a tab. -/
def isSpaceOrTab (c : Char) : Bool :=
  c == ' ' || c == '\t'

/-- The offset at the end of a time, which takes all that is left, if there is
    one. The outer result is missing if something else is there. -/
def offset? (cs : List Char) : Option (Option Int) :=
  match cs.dropWhile isSpaceOrTab with
  | [] => if cs.isEmpty then some none else none
  | ['Z'] => some (some 0)
  | mark :: rest =>
    if mark = '+' ∨ mark = '-' then do
      let (hours, rest) ← takeDigits? 1 2 rest
      let minutes ←
        match rest with
        | [] => some 0
        | ':' :: rest => do
          let (minutes, rest) ← takeDigits? 2 2 rest
          if rest.isEmpty then some minutes else none
        | _ => none
      let seconds : Int := 60 * (60 * hours + minutes)
      return some (if mark = '-' then -seconds else seconds)
    else none

/-- The millionths of a second that digits after the point give. -/
def microOf (ds : List Char) : Nat :=
  digitsValue ((ds ++ List.replicate 6 '0').take 6)

/-- The time of day after a day. -/
def time? (cs : List Char) : Option TimeOfDay := do
  let cs ←
    match cs with
    | 'T' :: rest => some rest
    | 't' :: rest => some rest
    | c :: rest => if isSpaceOrTab c then some (rest.dropWhile isSpaceOrTab) else none
    | [] => none
  let (hour, cs) ← takeDigits? 1 2 cs
  let (minute, cs) ← takeDigits? 2 2 (← skipChar? ':' cs)
  let (second, cs) ← takeDigits? 2 2 (← skipChar? ':' cs)
  let (fraction, cs) :=
    match cs with
    | '.' :: rest => (rest.takeWhile Char.isDigit, rest.dropWhile Char.isDigit)
    | cs => ([], cs)
  return ⟨hour, minute, second, microOf fraction, ← offset? cs⟩

/-- The parts of a text that is written like a day. Where `strict` holds, a
    day alone has two digits each for month and day. -/
def stampOf? (strict : Bool) (cs : List Char) : Option Stamp := do
  let (year, cs) ← takeDigits? 4 4 cs
  let afterYear ← skipChar? '-' cs
  let (month, cs) ← takeDigits? 1 2 afterYear
  let afterMonth ← skipChar? '-' cs
  let (day, cs) ← takeDigits? 1 2 afterMonth
  if cs.isEmpty then
    -- Two digits, a hyphen and two digits are left after the year.
    if strict && afterYear.length < 5 then none else some ⟨year, month, day, none⟩
  else
    let time ← time? cs
    some ⟨year, month, day, some time⟩

/-- What is wrong with the offset of a clock, which has to be less than a
    day. -/
def offsetFault? (seconds : Int) : Option String :=
  if seconds.natAbs < 86400 then none
  else
    some ("offset must be a timedelta strictly between -timedelta(hours=24) and " ++
      "timedelta(hours=24), not " ++ spanShown seconds ++ ".")

/-- What is wrong with the parts of a time of day. -/
def timeFault? (t : TimeOfDay) : Option String :=
  if 23 < t.hour then some "hour must be in 0..23"
  else if 59 < t.minute then some "minute must be in 0..59"
  else if 59 < t.second then some "second must be in 0..59"
  else none

/-- What is wrong with the parts of a stamp, the offset checked first. -/
def stampFault? (s : Stamp) : Option String :=
  if let some message := s.time.bind fun t => t.offset.bind offsetFault? then some message
  else if s.year = 0 then some "year 0 is out of range"
  else if s.month = 0 ∨ 12 < s.month then some "month must be in 1..12"
  else if s.day = 0 ∨ daysInMonth s.year s.month < s.day then some "day is out of range for month"
  else s.time.bind timeFault?

/-- The stamp of parts that are right, or what is wrong with them. -/
def checkedStamp (s : Stamp) : Except Fault Stamp :=
  match stampFault? s with
  | some message => .error (.badValue message)
  | none => .ok s

end Yaml

end Abacus
