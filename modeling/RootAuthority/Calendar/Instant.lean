import RootAuthority.Calendar.Date

/-!
# Instants, and the date and time of day at which they fall

An instant is a whole number of seconds since the start of 1970 in Universal Time and a fraction in
nanoseconds. Its date and time of day follow from the day number by division by 86400, which rounds
down, so instants before 1970 need no case of their own.

`Instant.shiftYears` moves an instant by whole calendar years and keeps the time of day. A leap day
that the target year lacks becomes 1 March. Instants outside the years -9999 to 9999 cannot be
written, and asking for one of them is refused.
-/

namespace RootAuthority

/-- A point in time: seconds since the start of 1970, and nanoseconds after that second. -/
structure Instant where
  secs : Int
  nanos : Nat
deriving DecidableEq, Repr

/-- A date and a time of day, to the second. -/
structure CivilTime where
  date : Date
  secondOfDay : Nat
deriving DecidableEq, Repr

namespace CivilTime

/-- The seconds since the start of 1970. -/
def toSeconds (t : CivilTime) : Int := t.date.toDays * 86400 + t.secondOfDay

/-- The date and time of day at a number of seconds since the start of 1970. -/
def ofSeconds (s : Int) : CivilTime := ⟨Date.ofDays (s / 86400), (s % 86400).toNat⟩

def hour (t : CivilTime) : Nat := t.secondOfDay / 3600
def minute (t : CivilTime) : Nat := t.secondOfDay / 60 % 60
def second (t : CivilTime) : Nat := t.secondOfDay % 60

end CivilTime

namespace Instant

/-- The first second of year -9999. -/
def firstSecond : Int := -377705116800

/-- The last second of year 9999. -/
def lastSecond : Int := 253402300799

/-- The instant falls in one of the years -9999 to 9999. -/
def Representable (t : Instant) : Prop := firstSecond ≤ t.secs ∧ t.secs ≤ lastSecond

instance (t : Instant) : Decidable t.Representable := inferInstanceAs (Decidable (_ ∧ _))

/-- The date and time of day of an instant. -/
def civil (t : Instant) : CivilTime := CivilTime.ofSeconds t.secs

/-- The year in which an instant falls. -/
def year (t : Instant) : Int := t.civil.date.year

/-! ## Moving by whole years -/

/-- Why an instant has no counterpart in another year. -/
inductive ShiftError
  /-- The target year is not one of -9999 to 9999. -/
  | yearOutOfRange
  /-- The day after 31 December 9999 was needed. -/
  | noNextDay
deriving DecidableEq, Repr

/-- The same month, day and time in the year `y`, if that date exists and can be written. -/
def inYear? (t : Instant) (y : Int) : Option Instant :=
  let c := t.civil
  let moved : Date := { c.date with year := y }
  if -9999 ≤ y ∧ y ≤ 9999 ∧ moved.Exists then
    some ⟨(CivilTime.mk moved c.secondOfDay).toSeconds, t.nanos⟩
  else none

/-- **The instant moved by whole years.** Where the date is missing in the target year, the day
    after it is moved instead. -/
def shiftYears (t : Instant) (years : Int) : Except ShiftError Instant :=
  let y := t.year + years
  match t.inYear? y with
  | some moved => .ok moved
  | none =>
    let next : Instant := ⟨t.secs + 86400, t.nanos⟩
    if lastSecond < next.secs then .error .noNextDay
    else match next.inYear? y with
      | some moved => .ok moved
      | none => .error .yearOutOfRange

end Instant

end RootAuthority
