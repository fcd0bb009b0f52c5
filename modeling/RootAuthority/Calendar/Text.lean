import RootAuthority.Calendar.Instant
import RootAuthority.Crash

/-!
# Times as text

Three written forms of a time:

* the display form of a certificate's validity, `2023-03-01 9:05:00.0 +00:00:00`: the hour is not
  padded, the fraction has no trailing zeros but at least one digit, and the offset from Universal
  Time is written out;
* the stamp of a log line, `2023-03-01T09:05:00.000000Z`;
* the two forms of ASN.1, `230301090500Z` for the years 1950 to 2049 and `20230301090500Z` for all
  others.
-/

namespace RootAuthority

/-- A number in decimal, filled with zeros on the left to at least `w` digits. -/
def zeroPadded (w n : Nat) : String :=
  let digits := Nat.toDigits 10 n
  String.ofList (List.replicate (w - digits.length) '0' ++ digits)

namespace Calendar

/-- A year in at least four digits; years past 9999 carry a plus sign. -/
def yearText (y : Int) : String :=
  if y < 0 then "-" ++ zeroPadded 4 y.natAbs
  else if 9999 < y then "+" ++ toString y
  else zeroPadded 4 y.toNat

/-- A fraction of a second in nanoseconds: nine digits without trailing zeros, at least one. -/
def fractionText (nanos : Nat) : String :=
  let digits := ((zeroPadded 9 nanos).toList.reverse.dropWhile (· == '0')).reverse
  if digits.isEmpty then "0" else String.ofList digits

end Calendar

/-- A point in time with the offset from Universal Time in which it was written down. -/
structure ZonedTime where
  instant : Instant
  /-- Seconds to add to Universal Time. -/
  offset : Int
deriving DecidableEq, Repr

namespace ZonedTime

/-- A time without an offset. -/
def utc (t : Instant) : ZonedTime := ⟨t, 0⟩

/-- The offset as sign, hours, minutes and seconds. -/
def offsetText (offset : Int) : String :=
  let n := offset.natAbs
  (if offset < 0 then "-" else "+") ++ zeroPadded 2 (n / 3600) ++ ":" ++ zeroPadded 2 (n / 60 % 60)
    ++ ":" ++ zeroPadded 2 (n % 60)

/-- **The display form.** -/
def display (t : ZonedTime) : String :=
  let c := CivilTime.ofSeconds (t.instant.secs + t.offset)
  Calendar.yearText c.date.year ++ "-" ++ zeroPadded 2 c.date.month ++ "-"
    ++ zeroPadded 2 c.date.day ++ " " ++ toString c.hour ++ ":" ++ zeroPadded 2 c.minute ++ ":"
    ++ zeroPadded 2 c.second ++ "." ++ Calendar.fractionText t.instant.nanos ++ " "
    ++ offsetText t.offset

end ZonedTime

/-- A date and time of day as it is written down at an offset from Universal Time. -/
structure LocalTime where
  civil : CivilTime
  nanos : Nat
  offset : Int
deriving DecidableEq, Repr

namespace LocalTime

/-- The date is in the calendar, and the day has that second. -/
def Exists (t : LocalTime) : Prop :=
  t.civil.date.Exists ∧ -9999 ≤ t.civil.date.year ∧ t.civil.date.year ≤ 9999
    ∧ t.civil.secondOfDay < 86400

instance (t : LocalTime) : Decidable t.Exists := inferInstanceAs (Decidable (_ ∧ _))

/-- The point in time, as if every date and time of day existed. -/
def zoned (t : LocalTime) : ZonedTime := ⟨⟨t.civil.toSeconds - t.offset, t.nanos⟩, t.offset⟩

/-- **The point in time** that was written down. -/
def toZoned (t : LocalTime) : Except Crash ZonedTime :=
  if t.Exists then .ok t.zoned else .error .noSuchTime

theorem toZoned_eq {t : LocalTime} (h : t.Exists) : t.toZoned = .ok t.zoned := if_pos h

end LocalTime

namespace Instant

/-- **The stamp of a log line**, in Universal Time to the microsecond. -/
def stamp (t : Instant) : String :=
  let c := t.civil
  Calendar.yearText c.date.year ++ "-" ++ zeroPadded 2 c.date.month ++ "-"
    ++ zeroPadded 2 c.date.day ++ "T" ++ zeroPadded 2 c.hour ++ ":" ++ zeroPadded 2 c.minute ++ ":"
    ++ zeroPadded 2 c.second ++ "." ++ zeroPadded 6 (t.nanos / 1000) ++ "Z"

end Instant

end RootAuthority
