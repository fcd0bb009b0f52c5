import RootAuthority.Calendar.Text
import RootAuthority.Der.Element

/-!
# The validity of a certificate

The two times of a certificate are written in one of two forms: the short form with a two-digit year
for the years 1950 to 2049, the long form with four digits for all others (`encodeTime`). Reading
(`readTime`) is more liberal: seconds may be missing, the short form may carry an offset from
Universal Time, the long form a fraction of up to three digits. A two-digit year from 50 on belongs
to the twentieth century, one below 50 to the twenty-first. Whatever is read, its date and time of
day exist (`exists_of_readTime`).
-/

namespace RootAuthority.Validity

open Der

/-! ## 1. Writing -/

/-- The digits of the time of day and the mark of Universal Time. -/
def clockDigits (c : CivilTime) : String :=
  zeroPadded 2 c.hour ++ zeroPadded 2 c.minute ++ zeroPadded 2 c.second ++ "Z"

/-- **A time in the form that its year asks for**; years before year 0 have none. -/
def encodeTime (secs : Int) : Option Octets :=
  let c := CivilTime.ofSeconds secs
  let monthDay := zeroPadded 2 c.date.month ++ zeroPadded 2 c.date.day
  if c.date.year < 0 then none
  else if 1950 ≤ c.date.year ∧ c.date.year < 2050 then
    some (primitive Tag.utcTime
      (Octets.ofText (zeroPadded 2 (c.date.year % 100).toNat ++ monthDay ++ clockDigits c)))
  else
    some (primitive Tag.generalizedTime
      (Octets.ofText (zeroPadded 4 c.date.year.toNat ++ monthDay ++ clockDigits c)))

/-! ## 2. Reading -/

/-- The value of a decimal digit. -/
def digit? (b : UInt8) : Option Nat := if 48 ≤ b ∧ b ≤ 57 then some (b.toNat - 48) else none

/-- The number spelled by two decimal digits. -/
def pair? (a b : UInt8) : Option Nat := do
  let x ← digit? a
  let y ← digit? b
  return x * 10 + y

/-- Month, day, hour, minute and second as read, before they are checked. -/
structure Fields where
  month : Nat
  day : Nat
  hour : Nat
  minute : Nat
  second : Nat

/-- Reads month, day, hour, minute and, if two more octets follow, the second. Something has to
    follow the minute. -/
def readFields : Octets → Option (Fields × Octets)
  | m1 :: m2 :: d1 :: d2 :: h1 :: h2 :: n1 :: n2 :: rest => do
    let month ← pair? m1 m2
    let day ← pair? d1 d2
    let hour ← pair? h1 h2
    let minute ← pair? n1 n2
    match rest with
    | [] => none
    | s1 :: s2 :: rest =>
      let second ← pair? s1 s2
      return (⟨month, day, hour, minute, second⟩, rest)
    | rest => return (⟨month, day, hour, minute, 0⟩, rest)
  | _ => none

/-- The date and time of day in a year, if all parts are within their ranges and the date exists. -/
def civil? (year : Int) (f : Fields) : Option CivilTime :=
  let date : Date := ⟨year, f.month, f.day⟩
  if f.hour ≤ 23 ∧ f.minute ≤ 59 ∧ f.second ≤ 59 ∧ date.Exists then
    some ⟨date, f.hour * 3600 + f.minute * 60 + f.second⟩
  else none

/-- The greatest number of hours in an offset. -/
def offsetLimit : Nat := 25

/-- The offset after the time, in seconds: the mark of Universal Time, or a sign with hours and
    minutes. The minutes take the sign of the hours, so with no hours they count upwards. -/
def offset? : Octets → Option Int
  | [0x5a] => some 0
  | [sign, h1, h2, m1, m2] => do
    let h ← pair? h1 h2
    let m ← pair? m1 m2
    if offsetLimit < h ∨ 59 < m then none
    else if sign = 0x2b then return h * 3600 + m * 60
    else if sign = 0x2d then
      if h = 0 then return m * 60 else return -(h * 3600 + m * 60 : Int)
    else none
  | _ => none

/-- Reads the short form. -/
def shortTime? : Octets → Option LocalTime
  | y1 :: y2 :: bs => do
    let year ← pair? y1 y2
    let (fields, rest) ← readFields bs
    let offset ← offset? rest
    let c ← civil? (if 50 ≤ year then 1900 + year else 2000 + year) fields
    return ⟨c, 0, offset⟩
  | _ => none

/-- The fraction of a second in thousandths, and what follows it: up to three digits. -/
def readFraction : (digits acc : Nat) → Octets → Option (Nat × Octets)
  | _, _, [] => none
  | digits, acc, b :: bs =>
    if b = 0x5a then some (acc * Nat.pow 10 (3 - digits), b :: bs)
    else match digits with
      | 3 => none
      | digits => (digit? b).bind fun d => readFraction (digits + 1) (acc * 10 + d) bs
termination_by _ _ bs => bs.length

/-- Reads the long form, which has to end with the mark of Universal Time. -/
def longTime? : Octets → Option LocalTime
  | y1 :: y2 :: y3 :: y4 :: bs => do
    let century ← pair? y1 y2
    let year ← pair? y3 y4
    let (fields, rest) ← readFields bs
    let c ← civil? (century * 100 + year : Nat) fields
    match rest with
    | 0x2e :: rest =>
      let (millis, rest) ← readFraction 0 0 rest
      if rest = [0x5a] then return ⟨c, millis * 1000000, 0⟩ else none
    | rest => if rest = [0x5a] then return ⟨c, 0, 0⟩ else none
  | _ => none

/-- **Reads a time of a certificate.** -/
def readTime (bs : Octets) : Option (LocalTime × Octets) := do
  let (e, rest) ← readElement bs
  if e.tag.number = Tag.utcTime then return (← shortTime? e.content, rest)
  else if e.tag.number = Tag.generalizedTime then return (← longTime? e.content, rest)
  else none

/-! ## 3. What is read exists -/

theorem digit?_le {b : UInt8} {n : Nat} (h : digit? b = some n) : n ≤ 9 := by
  unfold digit? at h
  split at h
  · next hb =>
    obtain rfl := Option.some.inj h
    have hle : b.toNat ≤ 57 := UInt8.le_iff_toNat_le.mp hb.2
    omega
  · cases h

theorem pair?_le {a b : UInt8} {n : Nat} (h : pair? a b = some n) : n ≤ 99 := by
  obtain ⟨x, hx, h⟩ := Option.bind_eq_some_iff.mp h
  obtain ⟨y, hy, h⟩ := Option.bind_eq_some_iff.mp h
  obtain rfl := Option.some.inj h
  have hxle := digit?_le hx
  have hyle := digit?_le hy
  omega

/-- A date and time of day that was put together exists, if its year can be written. -/
theorem exists_of_civil? {year : Int} {f : Fields} {c : CivilTime} (h : civil? year f = some c)
    (hlo : -9999 ≤ year) (hhi : year ≤ 9999) (nanos : Nat) (offset : Int) :
    LocalTime.Exists ⟨c, nanos, offset⟩ := by
  unfold civil? at h
  dsimp only at h
  split at h
  · next hranges =>
    obtain ⟨hhour, hminute, hsecond, hdate⟩ := hranges
    obtain rfl := Option.some.inj h
    exact ⟨hdate, hlo, hhi, by dsimp only; omega⟩
  · cases h

theorem exists_of_shortTime? {bs : Octets} {t : LocalTime} (h : shortTime? bs = some t) :
    t.Exists := by
  unfold shortTime? at h
  split at h
  · obtain ⟨year, hyear, h⟩ := Option.bind_eq_some_iff.mp h
    obtain ⟨⟨fields, rest⟩, -, h⟩ := Option.bind_eq_some_iff.mp h
    obtain ⟨offset, -, h⟩ := Option.bind_eq_some_iff.mp h
    obtain ⟨c, hc, h⟩ := Option.bind_eq_some_iff.mp h
    obtain rfl := Option.some.inj h
    have hle := pair?_le hyear
    exact exists_of_civil? hc (by split <;> omega) (by split <;> omega) 0 offset
  · cases h

theorem exists_of_longTime? {bs : Octets} {t : LocalTime} (h : longTime? bs = some t) :
    t.Exists := by
  unfold longTime? at h
  split at h
  · obtain ⟨century, hcentury, h⟩ := Option.bind_eq_some_iff.mp h
    obtain ⟨year, hyear, h⟩ := Option.bind_eq_some_iff.mp h
    obtain ⟨⟨fields, rest⟩, -, h⟩ := Option.bind_eq_some_iff.mp h
    obtain ⟨c, hc, h⟩ := Option.bind_eq_some_iff.mp h
    have hcenturyLe := pair?_le hcentury
    have hyearLe := pair?_le hyear
    have hexists := exists_of_civil? hc (by omega) (by omega)
    dsimp only at h
    split at h
    · obtain ⟨⟨millis, rest'⟩, -, h⟩ := Option.bind_eq_some_iff.mp h
      dsimp only at h
      split at h
      · obtain rfl := Option.some.inj h
        exact hexists _ _
      · cases h
    · split at h
      · obtain rfl := Option.some.inj h
        exact hexists _ _
      · cases h
  · cases h

/-- **A time that was read exists.** -/
theorem exists_of_readTime {bs rest : Octets} {t : LocalTime} (h : readTime bs = some (t, rest)) :
    t.Exists := by
  obtain ⟨⟨e, rest'⟩, -, h⟩ := Option.bind_eq_some_iff.mp h
  dsimp only at h
  split at h
  · obtain ⟨t', ht, h⟩ := Option.bind_eq_some_iff.mp h
    obtain ⟨rfl, -⟩ := Prod.mk.inj (Option.some.inj h)
    exact exists_of_shortTime? ht
  · split at h
    · obtain ⟨t', ht, h⟩ := Option.bind_eq_some_iff.mp h
      obtain ⟨rfl, -⟩ := Prod.mk.inj (Option.some.inj h)
      exact exists_of_longTime? ht
    · cases h

end RootAuthority.Validity
