import WideColumn.Text.Digit

/-!
# Dates, times and durations

Calendar values without a time zone: how they are read in ISO 8601, how they are written, and the
spelled-out form that messages use inside collections.
-/

namespace WideColumn

/-- A day of the proleptic Gregorian calendar. -/
structure Date where
  year : Nat
  month : Nat
  day : Nat
  deriving DecidableEq, Repr

/-- A time of day. -/
structure TimeOfDay where
  hour : Nat
  minute : Nat
  second : Nat
  microsecond : Nat
  deriving DecidableEq, Repr

/-- A day and a time of that day. -/
structure Timestamp where
  date : Date
  time : TimeOfDay
  deriving DecidableEq, Repr

/-- A length of time; seconds and microseconds are what is left over whole days and seconds. -/
structure Duration where
  days : Int
  seconds : Nat
  microseconds : Nat
  deriving DecidableEq, Repr

/-- A number in at least `width` digits. -/
def paddedNumber (width n : Nat) : String :=
  let ds := Nat.toDigits 10 n
  String.ofList (List.replicate (width - ds.length) '0' ++ ds)

namespace Date

/-- The year has a 29th of February. -/
def isLeap (year : Nat) : Bool := year % 4 == 0 && (year % 100 != 0 || year % 400 == 0)

/-- The number of days of a month. -/
def daysInMonth (year : Nat) : Nat → Nat
  | 2 => if isLeap year then 29 else 28
  | 4 | 6 | 9 | 11 => 30
  | _ => 31

/-- The day exists between the years 1 and 9999. -/
def isValid (d : Date) : Bool :=
  1 ≤ d.year && d.year ≤ 9999 && 1 ≤ d.month && d.month ≤ 12 && 1 ≤ d.day &&
    d.day ≤ daysInMonth d.year d.month

/-- Days before the first of January of a year, from the first day of the year 1. -/
def daysBeforeYear (year : Nat) : Nat :=
  let y := year - 1
  y * 365 + y / 4 - y / 100 + y / 400

/-- Days before the first of a month within its year. -/
def daysBeforeMonth (year month : Nat) : Nat :=
  (List.range (month - 1)).foldl (fun n m => n + daysInMonth year (m + 1)) 0

/-- The number of the day, the first day of the year 1 being 1. -/
def ordinal (d : Date) : Nat := daysBeforeYear d.year + daysBeforeMonth d.year d.month + d.day

/-- The month and the day within it of the `n`-th day of a year, counted from 0. -/
def ofDayOfYear (year : Nat) : Nat → Nat → List Nat → Date
  | n, month, [] => ⟨year, month, n + 1⟩
  | n, month, length :: rest =>
    if n < length then ⟨year, month, n + 1⟩ else ofDayOfYear year (n - length) (month + 1) rest

/-- The day with the given number. -/
def ofOrdinal (n : Nat) : Date :=
  let guess := n / 366 + 1
  let year := (List.range (n / 366 / 300 + 3)).foldl
    (fun y _ => if daysBeforeYear (y + 1) < n then y + 1 else y) guess
  ofDayOfYear year (n - daysBeforeYear year - 1) 1
    ((List.range 12).map fun m => daysInMonth year (m + 1))

/-- The weekday of the first day of a year, Monday being 0. -/
def firstWeekday (year : Nat) : Nat := daysBeforeYear year % 7

/-- The number of weeks of a year: 53 when it begins on a Thursday, or on a Wednesday and is a
leap year, else 52. -/
def weeksInYear (year : Nat) : Nat :=
  let w := firstWeekday year
  if w == 3 || (w == 2 && isLeap year) then 53 else 52

/-- The ordinal of the Monday of a year's first week, the one that holds its first Thursday; it
may lie before the first day of all. -/
def firstMonday (year : Nat) : Int :=
  let w := firstWeekday year
  let monday : Int := (daysBeforeYear year : Int) + 1 - w
  if 3 < w then monday + 7 else monday

/-- The day given by a year, a week and a weekday. -/
def ofWeek? (year week weekday : Nat) : Option Date :=
  if year < 1 ∨ 9999 < year ∨ week < 1 ∨ weeksInYear year < week ∨ weekday < 1 ∨ 7 < weekday then
    none
  else
    let n := firstMonday year + 7 * ((week : Int) - 1) + ((weekday : Int) - 1)
    if n < 1 ∨ ordinal ⟨9999, 12, 31⟩ < n then none else some (ofOrdinal n.toNat)

/-- The date if it exists. -/
def checked? (d : Date) : Option Date := if d.isValid then some d else none

/-- The part of an ISO date after the year and an optional hyphen. -/
def ofTail? (year : Nat) (hyphen : Bool) : List Char → Option Date
  | 'W' :: a :: b :: rest => do
    let week ← Text.asciiNumber? [a, b]
    match hyphen, rest with
    | _, [] => ofWeek? year week 1
    | true, '-' :: d :: _ => ofWeek? year week (← Text.asciiDigit? d)
    | true, _ => none
    | false, d :: _ => ofWeek? year week (← Text.asciiDigit? d)
  | a :: b :: rest => do
    let month ← Text.asciiNumber? [a, b]
    match hyphen, rest with
    | true, '-' :: c :: d :: _ => checked? ⟨year, month, ← Text.asciiNumber? [c, d]⟩
    | true, _ => none
    | false, c :: d :: _ => checked? ⟨year, month, ← Text.asciiNumber? [c, d]⟩
    | false, _ => none
  | _ => none

/-- A date in ISO 8601: of a month or of a week, with hyphens or without, in seven, eight or ten
octets. What follows a complete date within that length is not looked at. -/
def ofText? (s : String) : Option Date :=
  if s.utf8ByteSize = 7 ∨ s.utf8ByteSize = 8 ∨ s.utf8ByteSize = 10 then
    match s.toList with
    | a :: b :: c :: d :: rest => do
      let year ← Text.asciiNumber? [a, b, c, d]
      match rest with
      | '-' :: tail => ofTail? year true tail
      | tail => ofTail? year false tail
    | _ => none
  else none

/-- Year, month and day with hyphens. -/
def iso (d : Date) : String :=
  paddedNumber 4 d.year ++ "-" ++ paddedNumber 2 d.month ++ "-" ++ paddedNumber 2 d.day

end Date

namespace TimeOfDay

/-- Hours, minutes and seconds with colons, and microseconds after a point unless they are zero. -/
def iso (t : TimeOfDay) : String :=
  paddedNumber 2 t.hour ++ ":" ++ paddedNumber 2 t.minute ++ ":" ++ paddedNumber 2 t.second ++
    if t.microsecond = 0 then "" else "." ++ paddedNumber 6 t.microsecond

/-- A time written as `hh:mm`, `hh:mm:ss` or with a fraction of up to six digits. -/
def ofText? (s : String) : Option TimeOfDay := do
  let parts := s.splitOn ":"
  let number (p : String) := Text.asciiNumber? p.toList
  match parts with
  | [h, m] => pure ⟨← number h, ← number m, 0, 0⟩
  | [h, m, sec] =>
    match sec.splitOn "." with
    | [whole] => pure ⟨← number h, ← number m, ← number whole, 0⟩
    | [whole, fraction] =>
      let micros ← number (String.ofList ((fraction.toList ++ List.replicate 6 '0').take 6))
      pure ⟨← number h, ← number m, ← number whole, micros⟩
    | _ => none
  | _ => none

/-- The parts after the minutes that are written out: none, the seconds, or both. -/
def spelledTail (t : TimeOfDay) : List Nat :=
  if t.microsecond != 0 then [t.second, t.microsecond] else if t.second != 0 then [t.second] else []

/-- The hour, the minute and what has to follow. -/
def spelledParts (t : TimeOfDay) : List Nat := t.hour :: t.minute :: t.spelledTail

end TimeOfDay

namespace Timestamp

/-- Date and time with `separator` between them. -/
def iso (separator : String) (t : Timestamp) : String := t.date.iso ++ separator ++ t.time.iso

/-- A date and a time with a `T` between them. -/
def ofText? (s : String) : Option Timestamp := do
  match s.splitOn "T" with
  | [d, t] => pure ⟨← Date.ofText? d, ← TimeOfDay.ofText? t⟩
  | _ => none

end Timestamp

namespace Duration

/-- The whole length in microseconds. -/
def totalMicroseconds (d : Duration) : Int :=
  (d.days * 86400 + d.seconds) * 1000000 + d.microseconds

/-- Days unless there are none, then hours, minutes and seconds. -/
def render (d : Duration) : String :=
  let clock := toString (d.seconds / 3600) ++ ":" ++ paddedNumber 2 (d.seconds / 60 % 60) ++ ":" ++
    paddedNumber 2 (d.seconds % 60) ++
    if d.microseconds = 0 then "" else "." ++ paddedNumber 6 d.microseconds
  if d.days = 0 then clock
  else toString d.days ++ (if d.days.natAbs = 1 then " day, " else " days, ") ++ clock

end Duration

/-- Calls written out with their arguments, as messages spell calendar values in collections. -/
def spelledCall (name : String) (arguments : List String) : String :=
  name ++ "(" ++ ", ".intercalate arguments ++ ")"

/-- A date spelled out. -/
def Date.spelled (d : Date) : String :=
  spelledCall "datetime.date" [toString d.year, toString d.month, toString d.day]

/-- A time spelled out. -/
def TimeOfDay.spelled (t : TimeOfDay) : String :=
  spelledCall "datetime.time" (t.spelledParts.map toString)

/-- A timestamp spelled out. -/
def Timestamp.spelled (t : Timestamp) : String :=
  spelledCall "datetime.datetime"
    (([t.date.year, t.date.month, t.date.day] ++ t.time.spelledParts).map toString)

/-- A duration spelled out by the parts that are not zero. -/
def Duration.spelled (d : Duration) : String :=
  let parts :=
    (if d.days = 0 then [] else ["days=" ++ toString d.days]) ++
    (if d.seconds = 0 then [] else ["seconds=" ++ toString d.seconds]) ++
    (if d.microseconds = 0 then [] else ["microseconds=" ++ toString d.microseconds])
  spelledCall "datetime.timedelta" (if parts.isEmpty then ["0"] else parts)

end WideColumn
