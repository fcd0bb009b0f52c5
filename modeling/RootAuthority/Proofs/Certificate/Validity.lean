import RootAuthority.Certificate.Reader
import RootAuthority.Proofs.Calendar.Instant
import RootAuthority.Proofs.Der.Element

/-!
# The ends of a validity are read back

Both forms of a time are made of numbers with two digits (`Validity.twoDigits`).

* `Validity.readTime_encodeTime`: a time of the years 0 to 9999 is read back, to the second.
* `Validity.encodeTime_isSome`: a time from year 0 on can be written.
-/

namespace RootAuthority

/-- The time of day of an instant as it is written down in Universal Time. -/
def LocalTime.utc (secs : Int) : LocalTime := ⟨CivilTime.ofSeconds secs, 0, 0⟩

/-- **What is written down is the instant.** -/
theorem LocalTime.zoned_utc (secs : Int) : (utc secs).zoned = ZonedTime.utc ⟨secs, 0⟩ := by
  unfold zoned utc ZonedTime.utc
  rw [CivilTime.toSeconds_ofSeconds, Int.sub_zero]

namespace Validity

open Der

/-! ## 1. Digits -/

/-- The octet of a decimal digit. -/
def digitOctet (n : Nat) : UInt8 := UInt8.ofNat (48 + n)

/-- The octets of a number with two decimal digits. -/
def twoDigits (n : Nat) : Octets := [digitOctet (n / 10), digitOctet (n % 10)]

theorem toNat_digitChar : ∀ n < 10, (Nat.digitChar n).toNat = 48 + n := by decide

theorem digit?_digitOctet : ∀ n < 10, digit? (digitOctet n) = some n := by decide

/-- Another digit on the left of a padded number holds the next decimal place. -/
theorem toList_zeroPadded_succ {w : Nat} (hw : 0 < w) (n : Nat) :
    (zeroPadded (w + 1) n).toList = (zeroPadded w (n / 10)).toList ++ [Nat.digitChar (n % 10)] := by
  unfold zeroPadded
  simp only [String.toList_ofList]
  rw [Nat.toDigits_eq_if (by decide)]
  split
  · next hn =>
    rw [Nat.div_eq_of_lt hn, Nat.mod_eq_of_lt hn, Nat.toDigits_zero]
    simp only [List.length_singleton, Nat.add_sub_cancel]
    rw [← List.replicate_succ', Nat.sub_add_cancel hw]
  · simp only [List.length_append, List.length_singleton, Nat.add_sub_add_right,
      List.append_assoc]

theorem ofText_digitChar {n : Nat} (hn : n < 10) :
    Octets.ofText (String.ofList [Nat.digitChar n]) = [digitOctet n] := by
  have hd := toNat_digitChar n hn
  rw [Octets.ofText_ofList_ascii]
  · rw [List.map_singleton, hd, digitOctet]
  · intro c hc
    rw [List.mem_singleton.mp hc, hd]
    omega

theorem ofText_zeroPadded_succ {w : Nat} (hw : 0 < w) (n : Nat) :
    Octets.ofText (zeroPadded (w + 1) n)
      = Octets.ofText (zeroPadded w (n / 10)) ++ [digitOctet (n % 10)] := by
  have h : zeroPadded (w + 1) n
      = zeroPadded w (n / 10) ++ String.ofList [Nat.digitChar (n % 10)] := by
    rw [← String.toList_inj, String.toList_append, toList_zeroPadded_succ hw, String.toList_ofList]
  rw [h, Octets.ofText_append, ofText_digitChar (Nat.mod_lt _ (by decide))]

theorem ofText_zeroPadded_one {n : Nat} (hn : n < 10) :
    Octets.ofText (zeroPadded 1 n) = [digitOctet n] := by
  unfold zeroPadded
  rw [Nat.toDigits_of_lt_base hn]
  exact ofText_digitChar hn

theorem ofText_zeroPadded_two {n : Nat} (hn : n < 100) :
    Octets.ofText (zeroPadded 2 n) = twoDigits n := by
  rw [ofText_zeroPadded_succ (by decide), ofText_zeroPadded_one (by omega)]
  rfl

theorem ofText_zeroPadded_four {n : Nat} (hn : n < 10000) :
    Octets.ofText (zeroPadded 4 n) = twoDigits (n / 100) ++ twoDigits (n % 100) := by
  rw [ofText_zeroPadded_succ (by decide), ofText_zeroPadded_succ (by decide),
    ofText_zeroPadded_two (by omega)]
  have h1 : n / 10 / 10 = n / 100 := by omega
  have h2 : n / 10 % 10 = n % 100 / 10 := by omega
  have h3 : n % 10 = n % 100 % 10 := by omega
  rw [h1, h2, h3]
  rfl

@[simp]
theorem pair?_twoDigits {n : Nat} (hn : n < 100) :
    pair? (digitOctet (n / 10)) (digitOctet (n % 10)) = some n := by
  unfold pair?
  rw [digit?_digitOctet _ (by omega), digit?_digitOctet _ (Nat.mod_lt _ (by decide))]
  simp only [Option.bind_eq_bind, Option.bind_some, Option.pure_def, Option.some.injEq]
  omega

/-! ## 2. The time of day -/

/-- The octets of month, day, hour, minute and second, with the mark of Universal Time. -/
def fieldOctets (f : Fields) : Octets :=
  twoDigits f.month ++ (twoDigits f.day ++ (twoDigits f.hour ++ (twoDigits f.minute ++
    (twoDigits f.second ++ [0x5a]))))

@[simp] theorem length_fieldOctets (f : Fields) : (fieldOctets f).length = 11 := by
  rfl

theorem readFields_fieldOctets {f : Fields} (hmonth : f.month < 100) (hday : f.day < 100)
    (hhour : f.hour < 100) (hminute : f.minute < 100) (hsecond : f.second < 100) :
    readFields (fieldOctets f) = some (f, [0x5a]) := by
  unfold fieldOctets twoDigits
  simp only [List.cons_append, List.nil_append, readFields]
  simp [hmonth, hday, hhour, hminute, hsecond]

/-- The fields that a time is written with. -/
def fieldsOf (c : CivilTime) : Fields := ⟨c.date.month, c.date.day, c.hour, c.minute, c.second⟩

theorem hour_le {c : CivilTime} (h : c.secondOfDay < 86400) : c.hour ≤ 23 := by
  unfold CivilTime.hour
  omega

theorem minute_le (c : CivilTime) : c.minute ≤ 59 := by
  unfold CivilTime.minute
  omega

theorem second_le (c : CivilTime) : c.second ≤ 59 := by
  unfold CivilTime.second
  omega

theorem secondOfDay_eq (c : CivilTime) :
    c.hour * 3600 + c.minute * 60 + c.second = c.secondOfDay := by
  unfold CivilTime.hour CivilTime.minute CivilTime.second
  omega

/-- The fields of a time make up that time again. -/
theorem civil?_fieldsOf {c : CivilTime} (hd : c.date.Exists) (hs : c.secondOfDay < 86400) :
    civil? c.date.year (fieldsOf c) = some c := by
  unfold civil? fieldsOf
  dsimp only
  rw [if_pos ⟨hour_le hs, minute_le c, second_le c, hd⟩, secondOfDay_eq]

theorem readFields_fieldsOf {c : CivilTime} (hd : c.date.Exists) (hs : c.secondOfDay < 86400) :
    readFields (fieldOctets (fieldsOf c)) = some (fieldsOf c, [0x5a]) := by
  have hmonth := Date.month_le_of_exists hd
  have hday := Date.daysInMonth_le_31 c.date.year c.date.month
  have hhour := hour_le hs
  have hminute := minute_le c
  have hsecond := second_le c
  obtain ⟨-, hle⟩ := hd
  unfold fieldsOf
  exact readFields_fieldOctets (by dsimp only; omega) (by dsimp only; omega) (by dsimp only; omega)
    (by dsimp only; omega) (by dsimp only; omega)

theorem ofText_clockDigits {c : CivilTime} (hd : c.date.Exists) (hs : c.secondOfDay < 86400) :
    Octets.ofText (zeroPadded 2 c.date.month ++ zeroPadded 2 c.date.day ++ clockDigits c)
      = fieldOctets (fieldsOf c) := by
  have hmonth := Date.month_le_of_exists hd
  have hday := Date.daysInMonth_le_31 c.date.year c.date.month
  have hhour := hour_le hs
  have hminute := minute_le c
  have hsecond := second_le c
  obtain ⟨-, hle⟩ := hd
  unfold clockDigits fieldOctets fieldsOf
  have hz : Octets.ofText "Z" = [0x5a] := by decide
  simp only [Octets.ofText_append, hz]
  rw [ofText_zeroPadded_two (n := c.date.month) (by omega),
    ofText_zeroPadded_two (n := c.date.day) (by omega),
    ofText_zeroPadded_two (n := c.hour) (by omega),
    ofText_zeroPadded_two (n := c.minute) (by omega),
    ofText_zeroPadded_two (n := c.second) (by omega)]
  simp only [List.append_assoc]

/-! ## 3. Both forms -/

theorem shortTime?_digits {c : CivilTime} (hd : c.date.Exists) (hs : c.secondOfDay < 86400)
    (hlo : 1950 ≤ c.date.year) (hhi : c.date.year < 2050) :
    shortTime? (twoDigits (c.date.year % 100).toNat ++ fieldOctets (fieldsOf c))
      = some ⟨c, 0, 0⟩ := by
  unfold twoDigits
  simp only [List.cons_append, List.nil_append, shortTime?]
  have hyear : (if 50 ≤ (c.date.year % 100).toNat then 1900 + ((c.date.year % 100).toNat : Int)
      else 2000 + ((c.date.year % 100).toNat : Int)) = c.date.year := by
    split <;> omega
  simp only [pair?_twoDigits (n := (c.date.year % 100).toNat) (by omega), readFields_fieldsOf hd hs,
    offset?, hyear, civil?_fieldsOf hd hs, Option.bind_eq_bind, Option.bind_some, Option.pure_def]

theorem longTime?_digits {c : CivilTime} (hd : c.date.Exists) (hs : c.secondOfDay < 86400)
    (hlo : 0 ≤ c.date.year) (hhi : c.date.year ≤ 9999) :
    longTime? (twoDigits (c.date.year.toNat / 100) ++ twoDigits (c.date.year.toNat % 100)
      ++ fieldOctets (fieldsOf c)) = some ⟨c, 0, 0⟩ := by
  unfold twoDigits
  simp only [List.cons_append, List.nil_append, longTime?]
  have hyear : ((c.date.year.toNat / 100 * 100 + c.date.year.toNat % 100 : Nat) : Int)
      = c.date.year := by omega
  rw [pair?_twoDigits (n := c.date.year.toNat / 100) (by omega),
    pair?_twoDigits (n := c.date.year.toNat % 100) (by omega)]
  simp only [readFields_fieldsOf hd hs, hyear, civil?_fieldsOf hd hs, Option.bind_eq_bind,
    Option.bind_some, Option.pure_def]
  rfl

theorem encodeTime_short {secs : Int} (hlo : 1950 ≤ (CivilTime.ofSeconds secs).date.year)
    (hhi : (CivilTime.ofSeconds secs).date.year < 2050) :
    encodeTime secs = some (primitive Tag.utcTime
      (twoDigits ((CivilTime.ofSeconds secs).date.year % 100).toNat
        ++ fieldOctets (fieldsOf (CivilTime.ofSeconds secs)))) := by
  unfold encodeTime
  dsimp only
  rw [if_neg (by omega), if_pos ⟨hlo, hhi⟩, String.append_assoc, Octets.ofText_append,
    ofText_zeroPadded_two (by omega), ofText_clockDigits (CivilTime.exists_ofSeconds secs)
      (CivilTime.secondOfDay_ofSeconds secs)]

theorem encodeTime_long {secs : Int} (hlo : 0 ≤ (CivilTime.ofSeconds secs).date.year)
    (hhi : (CivilTime.ofSeconds secs).date.year ≤ 9999)
    (hout : ¬(1950 ≤ (CivilTime.ofSeconds secs).date.year
      ∧ (CivilTime.ofSeconds secs).date.year < 2050)) :
    encodeTime secs = some (primitive Tag.generalizedTime
      (twoDigits ((CivilTime.ofSeconds secs).date.year.toNat / 100)
        ++ twoDigits ((CivilTime.ofSeconds secs).date.year.toNat % 100)
        ++ fieldOctets (fieldsOf (CivilTime.ofSeconds secs)))) := by
  unfold encodeTime
  dsimp only
  rw [if_neg (Int.not_lt.mpr hlo), if_neg hout, String.append_assoc, Octets.ofText_append,
    ofText_zeroPadded_four (by omega), ofText_clockDigits (CivilTime.exists_ofSeconds secs)
      (CivilTime.secondOfDay_ofSeconds secs)]

theorem encodeTime_isSome {secs : Int} (h : 0 ≤ (CivilTime.ofSeconds secs).date.year) :
    ∃ bs, encodeTime secs = some bs := by
  unfold encodeTime
  dsimp only
  rw [if_neg (Int.not_lt.mpr h)]
  split
  · exact ⟨_, rfl⟩
  · exact ⟨_, rfl⟩

theorem year_of_encodeTime {secs : Int} {bs : Octets} (h : encodeTime secs = some bs) :
    0 ≤ (CivilTime.ofSeconds secs).date.year := by
  refine Int.not_lt.mp fun hneg => ?_
  unfold encodeTime at h
  dsimp only at h
  rw [if_pos hneg] at h
  cases h

/-- **A time is read back as it was written.** -/
theorem readTime_encodeTime {secs : Int} {bs : Octets} (h : encodeTime secs = some bs)
    (hhi : (CivilTime.ofSeconds secs).date.year ≤ 9999) (rest : Octets) :
    readTime (bs ++ rest) = some (.utc secs, rest) := by
  have hlo := year_of_encodeTime h
  have hd := CivilTime.exists_ofSeconds secs
  have hs := CivilTime.secondOfDay_ofSeconds secs
  unfold LocalTime.utc
  by_cases hshort : 1950 ≤ (CivilTime.ofSeconds secs).date.year
      ∧ (CivilTime.ofSeconds secs).date.year < 2050
  · rw [encodeTime_short hshort.1 hshort.2] at h
    obtain rfl := Option.some.inj h
    unfold readTime primitive
    rw [readElement_encode (by decide : Tag.utcTime < 31) (by simp [twoDigits])]
    simp [Tag.primitive, shortTime?_digits hd hs hshort.1 hshort.2]
  · rw [encodeTime_long hlo hhi hshort] at h
    obtain rfl := Option.some.inj h
    have hlong := longTime?_digits hd hs hlo hhi
    unfold readTime primitive
    rw [readElement_encode (by decide : Tag.generalizedTime < 31) (by simp [twoDigits])]
    simp only [Tag.primitive, Option.bind_eq_bind, Option.bind_some, hlong, Option.pure_def]
    rfl

end Validity

end RootAuthority
