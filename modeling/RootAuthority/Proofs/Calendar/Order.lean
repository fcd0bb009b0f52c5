import Mathlib.Data.Prod.Lex
import RootAuthority.Proofs.Calendar.Shift

/-!
# The order of instants that are moved by whole years

Dates keep their order when each is exchanged for its counterpart so many years away, with one
exception: a leap day and the first of March behind it become one day where the target year has no
leap day (`Date.inYear_lt_or_becomeOne`).

Instants are in the order of their dates, and on one date in that of their times of day
(`Instant.lt_iff_date`). Moving by whole years changes only the date, so what happens to the dates
decides what happens to the instants: they keep their order (`Instant.shiftYears_lt`), except on two
dates that become one. There only the times of day count, so two instants can trade places
(`Instant.TradePlaces`), by less than 24 hours, or be moved to the same one.
-/

namespace RootAuthority

namespace Date

variable {d e : Date} {k : Int}

/-! ## 1. Dates -/

/-- A date has the same month and day in another year, or it is a leap day that the year lacks. -/
theorem inYear_cases (h : d.Exists) (y : Int) :
    d.inYear y = { d with year := y } ∨
      (d.month = 2 ∧ d.day = 29 ∧ isLeapYear y = false) ∧ d.inYear y = ⟨y, 3, 1⟩ := by
  by_cases hday : d.month = 2 ∧ d.day = 29
  · cases hy : isLeapYear y with
    | true =>
      refine .inl (if_pos ⟨h.1, ?_⟩)
      show d.day ≤ daysInMonth y d.month
      rw [hday.1, hday.2, daysInMonth, if_pos rfl, hy]
      decide
    | false => exact .inr ⟨⟨hday.1, hday.2, rfl⟩, inYear_leapDay hday.1 hday.2 hy⟩
  · exact .inl (inYear_of_not_leapDay h hday y)

theorem exists_firstOfMarch (y : Int) : Exists ⟨y, 3, 1⟩ := ⟨Nat.le_refl 1, show 1 ≤ 31 by decide⟩

/-- The counterpart of a date exists. -/
theorem inYear_exists (d : Date) (y : Int) : (d.inYear y).Exists := by
  unfold inYear
  split
  · next h => exact h
  · exact exists_firstOfMarch y

theorem day_le_of_february (h : d.Exists) (hm : d.month = 2) : d.day ≤ 29 := by
  by_cases hday : d.day ≤ 28
  · omega
  · rw [(leapDay_of_exists h hm hday).2]

/-- **A leap day and the first of March behind it.** -/
structure AcrossLeapDay (d e : Date) : Prop where
  leapDay : d = ⟨d.year, 2, 29⟩
  firstOfMarch : e = ⟨d.year, 3, 1⟩

/-- **Two dates become one** when they are moved by so many years: the year that they are moved to
    lacks the leap day. -/
structure BecomeOne (d e : Date) (k : Int) : Prop extends AcrossLeapDay d e where
  lacking : isLeapYear (d.year + k) = false

/-- The years before and after a leap year lack the leap day. -/
theorem AcrossLeapDay.becomeOne (h : AcrossLeapDay d e) (hd : d.Exists) (hk : k = 1 ∨ k = -1) :
    BecomeOne d e k := by
  have hleap := isLeapYear_of_leapDay hd (by rw [h.leapDay]) (by rw [h.leapDay])
  refine ⟨h, ?_⟩
  rcases hk with rfl | rfl
  · exact isLeapYear_succ hleap
  · exact isLeapYear_pred hleap

theorem BecomeOne.inYear_eq (h : BecomeOne d e k) :
    d.inYear (d.year + k) = e.inYear (e.year + k) := by
  rw [h.firstOfMarch, inYear_leapDay (by rw [h.leapDay]) (by rw [h.leapDay]) h.lacking]
  exact (if_pos (exists_firstOfMarch _)).symm

/-- **Counterparts are in the order of the dates**, except for two dates that become one. -/
theorem inYear_lt_or_becomeOne (hd : d.Exists) (he : e.Exists) (h : d.toDays < e.toDays) (k : Int) :
    (d.inYear (d.year + k)).toDays < (e.inYear (e.year + k)).toDays ∨ BecomeOne d e k := by
  rw [toDays_lt_iff (inYear_exists d _) (inYear_exists e _)]
  rw [toDays_lt_iff hd he] at h
  have hpos := he.1
  unfold Precedes at h
  -- a date can only catch up with a later one if it is a leap day that is lost
  rcases inYear_cases hd (d.year + k) with hkept | ⟨⟨hfeb, hlast, hlacking⟩, hmoved⟩
  · left
    rcases inYear_cases he (e.year + k) with hkept' | ⟨⟨hfeb', hlast', -⟩, hmoved'⟩
    · rw [hkept, hkept', Precedes]
      dsimp only
      omega
    · rw [hkept, hmoved', Precedes]
      dsimp only
      omega
  · by_cases hnext : e.year = d.year ∧ e.month = 3 ∧ e.day = 1
    · obtain ⟨hyear, hmonth, hday⟩ := hnext
      right
      exact
        { leapDay := by rw [← hfeb, ← hlast]
          firstOfMarch := by rw [← hyear, ← hmonth, ← hday]
          lacking := hlacking }
    · left
      have hshort := day_le_of_february he
      rcases inYear_cases he (e.year + k) with hkept' | ⟨⟨hfeb', hlast', -⟩, hmoved'⟩
      · rw [hmoved, hkept', Precedes]
        dsimp only
        omega
      · rw [hmoved, hmoved', Precedes]
        dsimp only
        omega

end Date

namespace Instant

variable {t u t' u' : Instant} {k : Int}

/-! ## 2. Instants -/

/-- Instants are ordered in time. -/
instance : LT Instant where
  lt t t' := t.secs < t'.secs ∨ t.secs = t'.secs ∧ t.nanos < t'.nanos

theorem lt_of_secs_lt (h : t.secs < u.secs) : t < u := .inl h

instance : LE Instant where
  le t t' := t.secs < t'.secs ∨ t.secs = t'.secs ∧ t.nanos ≤ t'.nanos

theorem secs_le_of_le (h : t ≤ u) : t.secs ≤ u.secs :=
  h.elim Int.le_of_lt fun h => Int.le_of_eq h.1

theorem lt_iff_secs : t < u ↔ t.secs < u.secs ∨ t.secs = u.secs ∧ t.nanos < u.nanos := Iff.rfl

theorem le_iff_secs : t ≤ u ↔ t.secs < u.secs ∨ t.secs = u.secs ∧ t.nanos ≤ u.nanos := Iff.rfl

instance : LinearOrder Instant where
  le_refl t := .inr ⟨rfl, Nat.le_refl _⟩
  le_trans t u v h h' := by
    rw [le_iff_secs] at *
    omega
  le_antisymm t u h h' := by
    rw [le_iff_secs] at *
    cases t
    cases u
    rw [Instant.mk.injEq]
    dsimp only at h h'
    omega
  le_total t u := by
    rw [le_iff_secs, le_iff_secs]
    omega
  lt_iff_le_not_ge t u := by
    rw [le_iff_secs, le_iff_secs, lt_iff_secs]
    omega
  toDecidableLE t u := inferInstanceAs (Decidable (_ ∨ _ ∧ _))

/-- The time of day, to the nanosecond. -/
def timeOfDay (t : Instant) : Nat ×ₗ Nat := toLex (t.civil.secondOfDay, t.nanos)

/-- **Instants are in the order of their dates**, and on one date in that of their times of day. -/
theorem lt_iff_date : t < u ↔ t.civil.date.toDays < u.civil.date.toDays ∨
    t.civil.date.toDays = u.civil.date.toDays ∧ t.timeOfDay < u.timeOfDay := by
  have ht := secs_eq t
  have hu := secs_eq u
  have hday : t.civil.secondOfDay < 86400 := CivilTime.secondOfDay_ofSeconds _
  have hday' : u.civil.secondOfDay < 86400 := CivilTime.secondOfDay_ofSeconds _
  unfold timeOfDay
  rw [lt_iff_secs, Prod.Lex.toLex_lt_toLex]
  dsimp only
  omega

/-- **An instant is its date and its time of day.** -/
theorem eq_iff : t = u ↔ t.civil.date = u.civil.date ∧ t.timeOfDay = u.timeOfDay := by
  constructor
  · rintro rfl
    exact ⟨rfl, rfl⟩
  · intro ⟨hdate, htime⟩
    obtain ⟨hsecond, hnanos⟩ := Prod.ext_iff.mp (toLex_inj.mp htime)
    have ht := secs_eq t
    rw [hdate, show t.civil.secondOfDay = u.civil.secondOfDay from hsecond, ← secs_eq u] at ht
    cases t
    cases u
    cases ht
    cases hnanos
    rfl

/-- The instant 24 hours later. -/
def nextDay (t : Instant) : Instant := ⟨t.secs + 86400, t.nanos⟩

/-- Two instants on one date are less than 24 hours apart. -/
theorem lt_nextDay_of_date_eq (h : t.civil.date = u.civil.date) : t < u.nextDay := by
  have ht := secs_eq t
  have hu := secs_eq u
  have hday : t.civil.secondOfDay < 86400 := CivilTime.secondOfDay_ofSeconds _
  rw [h] at ht
  refine lt_of_secs_lt ?_
  show t.secs < u.secs + 86400
  omega

/-- **Two instants trade places** when they are moved to the year before or after: they fall on a
    leap day and on the first of March behind it, and the second one at an earlier time of day. -/
structure TradePlaces (t u : Instant) : Prop where
  dates : t.civil.date.AcrossLeapDay u.civil.date
  time : u.timeOfDay < t.timeOfDay

/-! ## 3. Moving by whole years -/

theorem date_of_shiftYears (h : t.shiftYears k = .ok t') :
    t'.civil.date = t.civil.date.inYear (t.civil.date.year + k) := by
  rw [(civil_of_shiftYears h).2]
  rfl

/-- **Moving by whole years keeps the time of day.** -/
theorem timeOfDay_of_shiftYears (h : t.shiftYears k = .ok t') : t'.timeOfDay = t.timeOfDay := by
  obtain ⟨hnanos, hcivil⟩ := civil_of_shiftYears h
  unfold timeOfDay
  rw [hnanos, hcivil]

/-- **Moved instants are in the order of the instants**, except on two dates that become one. -/
theorem shiftYears_lt (h : t < u) (ht : t.shiftYears k = .ok t') (hu : u.shiftYears k = .ok u')
    (hapart : ¬Date.BecomeOne t.civil.date u.civil.date k) : t' < u' := by
  rw [lt_iff_date, date_of_shiftYears ht, date_of_shiftYears hu, timeOfDay_of_shiftYears ht,
    timeOfDay_of_shiftYears hu]
  have hd : t.civil.date.Exists := CivilTime.exists_ofSeconds _
  have he : u.civil.date.Exists := CivilTime.exists_ofSeconds _
  rcases lt_iff_date.mp h with hdate | ⟨hdate, htime⟩
  · rcases Date.inYear_lt_or_becomeOne hd he hdate k with hlt | hone
    · exact .inl hlt
    · exact absurd hone hapart
  · rw [Date.eq_of_toDays_eq hd he hdate]
    exact .inr ⟨rfl, htime⟩

/-- Instants on two dates that become one are moved to the same date. -/
theorem date_eq_of_becomeOne (h : Date.BecomeOne t.civil.date u.civil.date k)
    (ht : t.shiftYears k = .ok t') (hu : u.shiftYears k = .ok u') :
    t'.civil.date = u'.civil.date := by
  rw [date_of_shiftYears ht, date_of_shiftYears hu, h.inYear_eq]

/-- **On two dates that become one only the times of day count** after moving. -/
theorem shiftYears_lt_iff_of_becomeOne (h : Date.BecomeOne t.civil.date u.civil.date k)
    (ht : t.shiftYears k = .ok t') (hu : u.shiftYears k = .ok u') :
    u' < t' ↔ u.timeOfDay < t.timeOfDay := by
  rw [lt_iff_date, date_eq_of_becomeOne h ht hu, timeOfDay_of_shiftYears ht, timeOfDay_of_shiftYears hu]
  simp

/-- **Instants that trade places** end up in the other order, less than 24 hours apart. -/
theorem TradePlaces.shifted (h : TradePlaces t u) (hk : k = 1 ∨ k = -1)
    (ht : t.shiftYears k = .ok t') (hu : u.shiftYears k = .ok u') : u' < t' ∧ t' < u'.nextDay := by
  have hone := h.dates.becomeOne (CivilTime.exists_ofSeconds t.secs) hk
  exact ⟨(shiftYears_lt_iff_of_becomeOne hone ht hu).mpr h.time,
    lt_nextDay_of_date_eq (date_eq_of_becomeOne hone ht hu)⟩

/-- **All other instants keep their order**, whatever the number of years. -/
theorem shiftYears_le (h : t ≤ u) (hplaces : ¬TradePlaces t u) (ht : t.shiftYears k = .ok t')
    (hu : u.shiftYears k = .ok u') : t' ≤ u' := by
  refine not_lt.mp fun hlt => ?_
  by_cases hone : Date.BecomeOne t.civil.date u.civil.date k
  · exact hplaces ⟨hone.toAcrossLeapDay, (shiftYears_lt_iff_of_becomeOne hone ht hu).mp hlt⟩
  · rcases eq_or_lt_of_le h with rfl | hbefore
    · rw [ht] at hu
      cases hu
      exact lt_irrefl t' hlt
    · exact lt_asymm (shiftYears_lt hbefore ht hu hone) hlt

/-- **When two instants are moved to the same one.** -/
theorem shiftYears_eq_iff (h : t ≤ u) (ht : t.shiftYears k = .ok t') (hu : u.shiftYears k = .ok u') :
    t' = u' ↔ t = u ∨
      Date.BecomeOne t.civil.date u.civil.date k ∧ t.timeOfDay = u.timeOfDay := by
  constructor
  · intro heq
    rcases eq_or_lt_of_le h with hsame | hlt
    · exact .inl hsame
    · by_cases hone : Date.BecomeOne t.civil.date u.civil.date k
      · rw [← timeOfDay_of_shiftYears ht, ← timeOfDay_of_shiftYears hu, heq]
        exact .inr ⟨hone, rfl⟩
      · have hmoved := shiftYears_lt hlt ht hu hone
        exact absurd heq hmoved.ne
  · rintro (rfl | ⟨hone, htime⟩)
    · rw [ht] at hu
      cases hu
      rfl
    · rw [eq_iff, timeOfDay_of_shiftYears ht, timeOfDay_of_shiftYears hu]
      exact ⟨date_eq_of_becomeOne hone ht hu, htime⟩

end Instant

end RootAuthority
