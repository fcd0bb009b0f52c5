import RootAuthority.Calendar.Date

/-!
# Days and dates correspond

Each number is the number of exactly one date that exists:

* `Date.exists_ofDays`: the date with a number exists, and
* `Date.toDays_ofDays`: it has that number;
* `Date.ofDays_toDays`: a date that exists is the one with its number.

The numbers are in the order of the dates, year before month before day (`Date.toDays_lt_iff`).

All of this rests on one reading of the calendar, in years that start in March (`Date.marchStart`):
such a year is the only one between whose start and the next a day lies (`Date.ofDays_eq`).
-/

namespace RootAuthority.Date

/-! ## 1. Years that start in March -/

/-- The days from 1 March of year 0 to 1 March of year `y`. -/
def marchStart (y : Int) : Int := 365 * y + y / 4 - y / 100 + y / 400

/-- The year in which a date falls if years start in March. -/
def marchYear (d : Date) : Int := if d.month ≤ 2 then d.year - 1 else d.year

/-- The months since March. -/
def marchMonth (d : Date) : Int := if d.month ≤ 2 then d.month + 9 else d.month - 3

/-- The days before the month that comes so many months after March. -/
def monthStart (m : Int) : Int := (153 * m + 2) / 5

theorem toDays_eq (d : Date) :
    d.toDays = marchStart d.marchYear + monthStart d.marchMonth + d.day - 1 - epochOffset := by
  unfold toDays marchStart marchYear monthStart marchMonth
  split <;> simp only

theorem marchStart_succ (y : Int) :
    marchStart (y + 1) = marchStart y + if isLeapYear (y + 1) then 366 else 365 := by
  unfold marchStart isLeapYear
  simp only [Bool.and_eq_true, beq_iff_eq, Bool.or_eq_true, bne_iff_ne]
  split <;> omega

/-- Later years start later. -/
theorem marchStart_mono {y z : Int} (h : y ≤ z) : marchStart y ≤ marchStart z := by
  unfold marchStart
  omega

theorem marchStart_add_era (era y : Int) :
    marchStart (era * 400 + y) = era * 146097 + marchStart y := by
  unfold marchStart
  omega

/-- The year of a day within 400 years, found by counting out the leap days. -/
def yearOfEra (doe : Int) : Int := (doe - doe / 1460 + doe / 36524 - doe / 146096) / 365

/-- **The year of a day within 400 years** is the one that the day lies in. -/
theorem yearOfEra_spec {doe : Int} (h0 : 0 ≤ doe) (h1 : doe < 146097) :
    (0 ≤ yearOfEra doe ∧ yearOfEra doe ≤ 399) ∧
      marchStart (yearOfEra doe) ≤ doe ∧ doe < marchStart (yearOfEra doe + 1) := by
  generalize hy : yearOfEra doe = y
  unfold yearOfEra at hy
  have hy0 : 0 ≤ y ∧ y ≤ 399 := by omega
  refine ⟨hy0, ?_, ?_⟩
  · unfold marchStart
    refine Int.not_lt.mp fun hlt => ?_
    have hf : y / 4 ≤ doe / 1460 := by omega
    have hg : doe / 36524 ≤ y / 100 := by omega
    omega
  · unfold marchStart
    refine Int.lt_of_not_ge fun hge => ?_
    have hf : doe / 1460 ≤ (y + 1) / 4 := by omega
    have h25 : 25 * ((y + 1) / 100) ≤ (y + 1) / 4 := by omega
    have hg : (y + 1) / 100 ≤ doe / 36524 := by omega
    have hh : doe / 146096 ≤ (y + 1) / 400 := by omega
    omega

/-- The date that comes so many days after 1 March of a year. -/
def ofMarch (y doy : Int) : Date :=
  let m := (5 * doy + 2) / 153
  let month := if m < 10 then m + 3 else m - 9
  ⟨y + (if month ≤ 2 then 1 else 0), month.toNat, (doy - monthStart m + 1).toNat⟩

/-- **The date with a number**, by the year starting in March that the day lies in. -/
theorem ofDays_eq (n : Int) : ∃ y doy, ofDays n = ofMarch y doy ∧ 0 ≤ doy ∧
    marchStart y + doy = n + epochOffset ∧ n + epochOffset < marchStart (y + 1) := by
  have hdiv := Int.mul_ediv_add_emod (n + epochOffset) 146097
  have h0 : 0 ≤ (n + epochOffset) % 146097 := Int.emod_nonneg _ (by decide)
  have h1 : (n + epochOffset) % 146097 < 146097 := Int.emod_lt_of_pos _ (by decide)
  have he : ofDays n = ofMarch
      (yearOfEra ((n + epochOffset) % 146097) + (n + epochOffset) / 146097 * 400)
      ((n + epochOffset) % 146097 - (365 * yearOfEra ((n + epochOffset) % 146097)
        + yearOfEra ((n + epochOffset) % 146097) / 4
        - yearOfEra ((n + epochOffset) % 146097) / 100)) := rfl
  rw [he]
  generalize (n + epochOffset) / 146097 = era at *
  generalize (n + epochOffset) % 146097 = doe at *
  obtain ⟨hy0, hlo, hhi⟩ := yearOfEra_spec h0 h1
  generalize yearOfEra doe = y at *
  have hs := marchStart_add_era era y
  have hs' := marchStart_add_era era (y + 1)
  have hstart : marchStart y = 365 * y + y / 4 - y / 100 := by
    unfold marchStart
    omega
  rw [Int.add_comm y, ← hstart]
  rw [← Int.add_assoc] at hs'
  exact ⟨_, _, rfl, by omega, by omega, by omega⟩

/-! ## 2. Both directions -/

theorem marchYear_ofMarch {y doy : Int} (h0 : 0 ≤ doy) (h1 : doy < 366) :
    (ofMarch y doy).marchYear = y := by
  unfold ofMarch marchYear
  dsimp only
  split <;> split <;> split <;> omega

theorem monthStart_ofMarch {y doy : Int} (h0 : 0 ≤ doy) (h1 : doy < 366) :
    monthStart (ofMarch y doy).marchMonth + (ofMarch y doy).day - 1 = doy := by
  unfold ofMarch marchMonth monthStart
  dsimp only
  split <;> split <;> omega

theorem exists_ofMarch {y doy : Int} (h0 : 0 ≤ doy)
    (h1 : marchStart y + doy < marchStart (y + 1)) : (ofMarch y doy).Exists := by
  rw [marchStart_succ] at h1
  have hdoy : doy < 366 := by split at h1 <;> omega
  have hm : (5 * doy + 2) / 153 = 0 ∨ (5 * doy + 2) / 153 = 1 ∨ (5 * doy + 2) / 153 = 2 ∨
      (5 * doy + 2) / 153 = 3 ∨ (5 * doy + 2) / 153 = 4 ∨ (5 * doy + 2) / 153 = 5 ∨
      (5 * doy + 2) / 153 = 6 ∨ (5 * doy + 2) / 153 = 7 ∨ (5 * doy + 2) / 153 = 8 ∨
      (5 * doy + 2) / 153 = 9 ∨ (5 * doy + 2) / 153 = 10 ∨ (5 * doy + 2) / 153 = 11 := by omega
  unfold Exists ofMarch daysInMonth monthStart
  rcases hm with h | h | h | h | h | h | h | h | h | h | h | h <;> simp [h] <;> try omega
  -- what is left is February, whose length the leap rule of its own year decides
  split at h1 <;> simp_all <;> omega

/-- **The date with a number exists.** -/
theorem exists_ofDays (n : Int) : (ofDays n).Exists := by
  obtain ⟨y, doy, he, h0, hs, hlt⟩ := ofDays_eq n
  rw [he]
  exact exists_ofMarch h0 (by omega)

/-- **The date with a number has that number.** -/
theorem toDays_ofDays (n : Int) : (ofDays n).toDays = n := by
  obtain ⟨y, doy, he, h0, hs, hlt⟩ := ofDays_eq n
  have hdoy : doy < 366 := by
    rw [marchStart_succ] at hlt
    split at hlt <;> omega
  have hm := monthStart_ofMarch (y := y) h0 hdoy
  rw [he, toDays_eq, marchYear_ofMarch h0 hdoy]
  omega

theorem month_le_of_exists {d : Date} (h : d.Exists) : 1 ≤ d.month ∧ d.month ≤ 12 := by
  obtain ⟨h1, h2⟩ := h
  unfold daysInMonth at h2
  split at h2
  · omega
  · split at h2
    · omega
    · split at h2 <;> omega

/-- The months from March on follow one linear rule, except that February is cut short. -/
theorem daysInMonth_le {d : Date} (h1 : 1 ≤ d.month) (h12 : d.month ≤ 12) :
    (daysInMonth d.year d.month : Int)
      ≤ monthStart (d.marchMonth + 1) - monthStart d.marchMonth ∧
    monthStart d.marchMonth + daysInMonth d.year d.month
      ≤ marchStart (d.marchYear + 1) - marchStart d.marchYear := by
  have hc : d.month = 1 ∨ d.month = 2 ∨ d.month = 3 ∨ d.month = 4 ∨ d.month = 5 ∨ d.month = 6 ∨
      d.month = 7 ∨ d.month = 8 ∨ d.month = 9 ∨ d.month = 10 ∨ d.month = 11 ∨ d.month = 12 := by
    omega
  rw [marchStart_succ]
  unfold marchYear marchMonth monthStart daysInMonth
  rcases hc with h | h | h | h | h | h | h | h | h | h | h | h <;> simp [h] <;> split <;>
    omega

theorem daysInMonth_le_31 (y : Int) (m : Nat) : daysInMonth y m ≤ 31 := by
  unfold daysInMonth
  split
  · split <;> omega
  · split
    · omega
    · split <;> omega

theorem monthStart_mono {m m' : Int} (h : m ≤ m') : monthStart m ≤ monthStart m' := by
  unfold monthStart
  omega

/-! ## 3. Order -/

/-- The days of a year come before the first day of the next one, and none of them earlier than its
    own first day, the 307th after the first of March. -/
theorem toDays_bounds {d : Date} (h : d.Exists) :
    marchStart (d.year - 1) + 306 ≤ d.toDays + epochOffset ∧
      d.toDays + epochOffset < marchStart d.year + 306 := by
  have hm := month_le_of_exists h
  have hd := daysInMonth_le hm.1 hm.2
  obtain ⟨h1, h2⟩ := h
  have hlt := marchStart_succ (d.year - 1)
  rw [Int.sub_add_cancel] at hlt
  have hstep : marchStart (d.year - 1) + 365 ≤ marchStart d.year := by split at hlt <;> omega
  rw [toDays_eq]
  unfold marchYear marchMonth at *
  by_cases hfeb : d.month ≤ 2
  · simp only [if_pos hfeb, Int.sub_add_cancel] at hd ⊢
    have h306 := monthStart_mono (show (10 : Int) ≤ d.month + 9 by omega)
    have : monthStart 10 = 306 := rfl
    omega
  · simp only [if_neg hfeb] at hd ⊢
    have h0 := monthStart_mono (show (0 : Int) ≤ d.month - 3 by omega)
    have h306 := monthStart_mono (show (d.month : Int) - 3 + 1 ≤ 10 by omega)
    have : monthStart 0 = 0 := rfl
    have : monthStart 10 = 306 := rfl
    omega

/-- **A date comes before another**: in an earlier year, or in the same year in an earlier month, or
    in the same month on an earlier day. -/
def Precedes (d e : Date) : Prop :=
  d.year < e.year ∨ d.year = e.year ∧ (d.month < e.month ∨ d.month = e.month ∧ d.day < e.day)

theorem precedes_or (d e : Date) : d.Precedes e ∨ d = e ∨ e.Precedes d := by
  unfold Precedes
  by_cases hsame : d.year = e.year ∧ d.month = e.month ∧ d.day = e.day
  · obtain ⟨hyear, hmonth, hday⟩ := hsame
    cases d
    cases e
    subst hyear hmonth hday
    exact .inr (.inl rfl)
  · omega

/-- Within one year the days of an earlier month come earlier. -/
theorem toDays_lt_of_month_lt {d e : Date} (hd : d.Exists) (he : e.Exists) (hyear : d.year = e.year)
    (hmonth : d.month < e.month) : d.toDays < e.toDays := by
  have hdm := month_le_of_exists hd
  obtain ⟨hlength, hrest⟩ := daysInMonth_le hdm.1 hdm.2
  obtain ⟨-, hdday⟩ := hd
  obtain ⟨heday, -⟩ := he
  rw [toDays_eq, toDays_eq]
  by_cases hmarch : d.month ≤ 2 ∧ ¬e.month ≤ 2
  · -- the year that starts in March begins between the two
    have hyears : d.marchYear + 1 = e.marchYear := by
      unfold marchYear
      rw [if_pos hmarch.1, if_neg hmarch.2]
      omega
    have hstart : 0 ≤ monthStart e.marchMonth := by
      unfold monthStart marchMonth
      split <;> omega
    rw [hyears] at hrest
    omega
  · have hyears : d.marchYear = e.marchYear := by
      unfold marchYear
      split <;> split <;> omega
    have hmonths : d.marchMonth + 1 ≤ e.marchMonth := by
      unfold marchMonth
      split <;> split <;> omega
    have hmono := monthStart_mono hmonths
    rw [hyears]
    omega

/-- **Of two dates that exist the one that comes before has the lower number.** -/
theorem toDays_lt_of_precedes {d e : Date} (hd : d.Exists) (he : e.Exists) (h : d.Precedes e) :
    d.toDays < e.toDays := by
  rcases h with hyear | ⟨hyear, hmonth | ⟨hmonth, hday⟩⟩
  · have hbefore := (toDays_bounds hd).2
    have hafter := (toDays_bounds he).1
    have hmono := marchStart_mono (show d.year ≤ e.year - 1 by omega)
    omega
  · exact toDays_lt_of_month_lt hd he hyear hmonth
  · rw [toDays_eq, toDays_eq]
    unfold marchYear marchMonth
    rw [hyear, hmonth]
    omega

/-- **Dates that exist are told apart by their numbers.** -/
theorem eq_of_toDays_eq {d e : Date} (hd : d.Exists) (he : e.Exists)
    (h : d.toDays = e.toDays) : d = e := by
  rcases precedes_or d e with hlt | heq | hlt
  · exact absurd h (Int.ne_of_lt (toDays_lt_of_precedes hd he hlt))
  · exact heq
  · exact absurd h.symm (Int.ne_of_lt (toDays_lt_of_precedes he hd hlt))

/-- **The numbers of dates that exist are in the order of the dates.** -/
theorem toDays_lt_iff {d e : Date} (hd : d.Exists) (he : e.Exists) :
    d.toDays < e.toDays ↔ d.Precedes e := by
  refine ⟨fun hlt => ?_, toDays_lt_of_precedes hd he⟩
  rcases precedes_or d e with h | rfl | h
  · exact h
  · exact absurd hlt (Int.lt_irrefl _)
  · exact absurd (toDays_lt_of_precedes he hd h) (Int.not_lt.mpr (Int.le_of_lt hlt))

/-- **A date that exists is the one with its number.** -/
theorem ofDays_toDays {d : Date} (h : d.Exists) : ofDays d.toDays = d :=
  eq_of_toDays_eq (exists_ofDays _) h (toDays_ofDays _)

end RootAuthority.Date
