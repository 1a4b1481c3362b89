/-!
# Stamps

Days of the calendar, alone or with a time of day. A time of day may say how
far its clock is ahead of universal time.

Two stamps whose clocks are related to universal time are the same if they
name the same moment. In all other cases only stamps with the same parts are
the same: a day is not its first moment, and a clock that is not related to
universal time agrees with no clock that is.

## Main definitions

* `TimeOfDay`: A time on a clock.
* `Stamp`: A day, possibly with a time of day.
* `isLeapYear`, `daysInMonth`, `dayNumber`: The calendar.
* `Stamp.moment?`: The moment that a stamp names.
* `Stamp.same`: Whether two stamps are the same.
* `Stamp.shown`: A stamp as a message shows it.
-/

namespace Abacus

/-- A time on a clock, which is ahead of universal time by `offset` seconds if
    that is known. -/
structure TimeOfDay where
  hour : Nat
  minute : Nat
  second : Nat
  micro : Nat
  offset : Option Int
  deriving DecidableEq, Repr, Inhabited

/-- A day, possibly with a time of day. -/
structure Stamp where
  year : Nat
  month : Nat
  day : Nat
  time : Option TimeOfDay
  deriving DecidableEq, Repr, Inhabited

/-- Whether a year has a leap day. -/
def isLeapYear (year : Nat) : Bool :=
  year % 4 == 0 && (year % 100 != 0 || year % 400 == 0)

/-- The number of days of a month. -/
def daysInMonth (year month : Nat) : Nat :=
  if month = 2 then (if isLeapYear year then 29 else 28)
  else if month = 4 ∨ month = 6 ∨ month = 9 ∨ month = 11 then 30
  else 31

/-- The number of a day in the calendar, counted from the first day of the
    first year. -/
def dayNumber (year month day : Nat) : Nat :=
  let years := year - 1
  let before := (List.range (month - 1)).foldl (fun n m => n + daysInMonth year (m + 1)) 0
  365 * years + years / 4 - years / 100 + years / 400 + before + (day - 1)

/-- A span of time in seconds, as days, which may be less than none, and
    seconds within a day; parts that are zero are left out. -/
def spanShown (seconds : Int) : String :=
  let days := seconds / 86400
  let rest := seconds % 86400
  let parts :=
    (if days = 0 then [] else [s!"days={days}"]) ++ (if rest = 0 then [] else [s!"seconds={rest}"])
  "datetime.timedelta(" ++ String.intercalate ", " parts ++ ")"

/-- The offset of a clock as it is shown after the time. -/
def offsetShown : Option Int → String
  | none => ""
  | some 0 => ", tzinfo=datetime.timezone.utc"
  | some n => ", tzinfo=datetime.timezone(" ++ spanShown n ++ ")"

/-- A time as it is shown after a day; seconds that are zero are left out. -/
def TimeOfDay.shown (t : TimeOfDay) : String :=
  let seconds :=
    if t.micro ≠ 0 then s!", {t.second}, {t.micro}"
    else if t.second ≠ 0 then s!", {t.second}"
    else ""
  s!"{t.hour}, {t.minute}" ++ seconds ++ offsetShown t.offset

/-- The time since midnight in millionths of a second. -/
def TimeOfDay.sinceMidnight (t : TimeOfDay) : Nat :=
  (3600 * t.hour + 60 * t.minute + t.second) * 1000000 + t.micro

namespace Stamp

/-- A stamp as a message shows it: a value that is built from its parts. -/
def shown (s : Stamp) : String :=
  let day := s!"{s.year}, {s.month}, {s.day}"
  match s.time with
  | none => "datetime.date(" ++ day ++ ")"
  | some time => "datetime.datetime(" ++ day ++ ", " ++ time.shown ++ ")"

/-- The moment that a stamp names, in millionths of a second of universal
    time. Only a clock with a known offset names one. -/
def moment? (s : Stamp) : Option Int := do
  let time ← s.time
  let offset ← time.offset
  let midnight : Int := dayNumber s.year s.month s.day * 86400
  return (midnight - offset) * 1000000 + time.sinceMidnight

/-- Whether two stamps are the same. -/
def same (s t : Stamp) : Bool :=
  match s.moment?, t.moment? with
  | some a, some b => a == b
  | _, _ => decide (s = t)

end Stamp

end Abacus
