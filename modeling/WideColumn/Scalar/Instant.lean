import WideColumn.Failure

/-!
# Instants

An instant is a number of seconds from the beginning of the year 1970. Its date and time are told in
universal time to the microsecond: the fraction of a second is scaled in double precision and then
rounded to the nearest microsecond, a tie to the even one.
-/

namespace WideColumn

namespace Timestamp

/-- The number of the first day of 1970. -/
def firstDay : Int := 719163

/-- The days in four hundred years. -/
def cycleDays : Int := 146097

/-- The day of a number in a calendar without a first year: the cycle of four hundred years, and the
day within it. -/
def cycleOf (day : Int) : Int × Date :=
  ((day - 1).fdiv cycleDays, Date.ofOrdinal (((day - 1).fmod cycleDays) + 1).toNat)

/-- The time of a day after a number of seconds. -/
def timeAfter (seconds microsecond : Nat) : TimeOfDay :=
  ⟨seconds / 3600, seconds / 60 % 60, seconds % 60, microsecond⟩

/-- The nearest integer, a tie going to the even one. -/
def nearest (q : Rat) : Int :=
  let n : Int := Binary64.roundRatio q.num.natAbs q.den
  if q.num < 0 then -n else n

/-- The microseconds of a fraction of a second. -/
def microseconds (fraction : Rat) : Int :=
  let micros := Binary64.ofRatio (fraction.num < 0) (fraction.num.natAbs * 1000000) fraction.den
  match micros.value? with
  | some q => nearest q
  | none => 0

/-- A year counted from 1900 is a word of 32 bits; one that does not fit is unknown to the clock. -/
def isClockYear (year : Int) : Bool := -Nat.pow 2 31 ≤ year - 1900 && year - 1900 < Nat.pow 2 31

/-- The timestamp of a number of whole seconds and microseconds, where the year may lie outside
the calendar. -/
def ofParts (seconds : Int) (micros : Nat) : Except Failure Timestamp :=
  let (cycle, date) := cycleOf (firstDay + seconds.fdiv 86400)
  let year := 400 * cycle + date.year
  if 1 ≤ year ∧ year ≤ 9999 then
    .ok ⟨{ date with year := year.toNat }, timeAfter (seconds.fmod 86400).toNat micros⟩
  else if isClockYear year then
    .error (.badValue ("year " ++ toString (year.bmod (Nat.pow 2 32)) ++ " is out of range"))
  else .error (.thrown .system "" .missing)

/-- The timestamp of an instant in universal time. -/
def ofSeconds (x : Binary64) : Except Failure Timestamp :=
  match x.value? with
  | none =>
    if x = .nan then .error (.badValue "Invalid value NaN (not a number)")
    else .error .outOfRange
  | some q =>
    let whole := q.num.tdiv q.den
    let micros := microseconds (q - whole)
    if whole < -Nat.pow 2 63 ∨ Nat.pow 2 63 ≤ whole then .error .outOfRange
    else if micros < 0 then ofParts (whole - 1) (micros + 1000000).toNat
    else if micros < 1000000 then ofParts whole micros.toNat
    else ofParts (whole + 1) (micros - 1000000).toNat

end Timestamp

end WideColumn
