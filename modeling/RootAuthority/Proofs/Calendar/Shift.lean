import RootAuthority.Proofs.Calendar.Instant

/-!
# Where an instant falls after it was moved by whole years

A date has a counterpart in every year (`Date.inYear`): the same month and day, and 1 March for a
leap day that the year lacks.

* `Instant.civil_of_shiftYears`: an instant moved by whole years falls on the counterpart of its
  date, at the same time of day.
* `Instant.secs_of_shiftYears`: one year back or forth is 365 or 366 whole days, and from the one to
  the other it is 730 or 731 days.
* `Instant.shiftYears_nanos`: the fraction of the second plays no part.
-/

namespace RootAuthority

namespace Date

variable {d : Date}

/-! ## 1. The counterpart of a date -/

/-- **The counterpart of a date in a year**: the same month and day, or 1 March where there is no
    such day. -/
def inYear (d : Date) (y : Int) : Date :=
  if Exists { d with year := y } then { d with year := y } else ⟨y, 3, 1⟩

/-- The counterpart of a leap day in a year without one. -/
theorem inYear_leapDay {y : Int} (hm : d.month = 2) (hd : d.day = 29) (hy : isLeapYear y = false) :
    d.inYear y = ⟨y, 3, 1⟩ := by
  have hmissing : ¬Exists { d with year := y } := by
    rintro ⟨-, hle⟩
    change d.day ≤ daysInMonth y d.month at hle
    rw [hm, hd, daysInMonth, if_pos rfl, hy] at hle
    exact absurd hle (by decide)
  exact if_neg hmissing

theorem inYear_of_not_leapDay (h : d.Exists) (hd : ¬(d.month = 2 ∧ d.day = 29)) (y : Int) :
    d.inYear y = { d with year := y } :=
  if_pos (exists_inYear h hd y)

theorem isLeapYear_of_leapDay (h : d.Exists) (hm : d.month = 2) (hd : d.day = 29) :
    isLeapYear d.year = true :=
  (leapDay_of_exists h hm (by omega)).1

/-- Of two years that follow each other at most one is a leap year. -/
theorem isLeapYear_succ {y : Int} (h : isLeapYear y = true) : isLeapYear (y + 1) = false := by
  unfold isLeapYear at h ⊢
  simp only [Bool.and_eq_true, beq_iff_eq] at h
  have hodd : ((y + 1) % 4 == 0) = false := beq_eq_false_iff_ne.mpr (by omega)
  rw [hodd, Bool.false_and]

theorem isLeapYear_pred {y : Int} (h : isLeapYear y = true) : isLeapYear (y - 1) = false := by
  cases hpred : isLeapYear (y - 1) with
  | false => rfl
  | true =>
    have hsucc := isLeapYear_succ hpred
    rw [Int.sub_add_cancel, h] at hsucc
    cases hsucc

/-- **The counterpart of a date one year off**: 1 March for a leap day, else the same month and
    day. -/
theorem inYear_next_or_last (h : d.Exists) {y : Int} (hy : y = d.year - 1 ∨ y = d.year + 1) :
    d.inYear y = if d.month = 2 ∧ d.day = 29 then ⟨y, 3, 1⟩ else ⟨y, d.month, d.day⟩ := by
  split
  · next hleap =>
    have hyear := isLeapYear_of_leapDay h hleap.1 hleap.2
    refine inYear_leapDay hleap.1 hleap.2 ?_
    rcases hy with rfl | rfl
    · exact isLeapYear_pred hyear
    · exact isLeapYear_succ hyear
  · next hday => exact inYear_of_not_leapDay h hday y

/-! ## 2. The days between counterparts -/

theorem toDays_sameDay (d : Date) (k : Int) : toDays { d with year := d.year + k }
    = d.toDays + (marchStart (d.marchYear + k) - marchStart d.marchYear) := by
  rw [toDays_eq, toDays_eq]
  have hyear : marchYear { d with year := d.year + k } = d.marchYear + k := by
    unfold marchYear
    dsimp only
    split <;> omega
  have hmonth : marchMonth { d with year := d.year + k } = d.marchMonth := rfl
  rw [hyear, hmonth]
  dsimp only
  omega

/-- **How far the counterparts of a date are away**, in days. -/
structure YearApart (d last next : Date) : Prop where
  back : d.toDays - last.toDays = 365 ∨ d.toDays - last.toDays = 366
  forth : next.toDays - d.toDays = 365 ∨ next.toDays - d.toDays = 366
  both : next.toDays - last.toDays = 730 ∨ next.toDays - last.toDays = 731

/-- The counterparts of a date in the years before and after it are a year away. -/
theorem yearApart_inYear (h : d.Exists) :
    YearApart d (d.inYear (d.year - 1)) (d.inYear (d.year + 1)) := by
  rw [inYear_next_or_last h (.inl rfl), inYear_next_or_last h (.inr rfl)]
  by_cases hleap : d.month = 2 ∧ d.day = 29
  · -- the leap day comes before the first of March, whose counterparts are the same
    have hyear := isLeapYear_of_leapDay h hleap.1 hleap.2
    obtain ⟨-, hday⟩ := leapDay_of_exists h hleap.1 (by omega)
    have hmarch := toDays_leapDay hyear
    have hback := toDays_sameDay ⟨d.year, 3, 1⟩ (-1)
    have hforth := toDays_sameDay ⟨d.year, 3, 1⟩ 1
    have hthis := marchStart_succ (d.year - 1)
    have hnext := marchStart_succ d.year
    change toDays ⟨d.year - 1, 3, 1⟩ = _ + (marchStart (d.year - 1) - marchStart d.year) at hback
    change toDays ⟨d.year + 1, 3, 1⟩ = _ + (marchStart (d.year + 1) - marchStart d.year) at hforth
    rw [Int.sub_add_cancel, if_pos hyear] at hthis
    rw [isLeapYear_succ hyear, if_neg Bool.false_ne_true] at hnext
    rw [← hday] at hmarch
    rw [if_pos hleap, if_pos hleap]
    constructor <;> omega
  · have hlast := marchStart_succ (d.marchYear - 1)
    have hthis := marchStart_succ d.marchYear
    have hback := toDays_sameDay d (-1)
    have hforth := toDays_sameDay d 1
    have hpred : isLeapYear (d.marchYear + 1) = true → isLeapYear d.marchYear = false := by
      intro hsucc
      have hlt := isLeapYear_pred hsucc
      rwa [Int.add_sub_cancel] at hlt
    change toDays ⟨d.year - 1, d.month, d.day⟩ = _ at hback
    change toDays ⟨d.year + 1, d.month, d.day⟩ = _ at hforth
    rw [Int.sub_add_cancel] at hlast
    rw [show d.marchYear + -1 = d.marchYear - 1 from rfl] at hback
    rw [if_neg hleap, if_neg hleap]
    exact
      { back := by grind
        forth := by grind
        both := by grind }

end Date

namespace Instant

variable {t t' : Instant} {k : Int}

/-! ## 3. Moving by whole years -/

/-- What an instant is moved to if its date exists in the year asked for. -/
theorem civil_of_inYear? {y : Int} (h : t.inYear? y = some t') :
    t'.nanos = t.nanos ∧ Date.Exists { t.civil.date with year := y } ∧
      t'.civil = ⟨{ t.civil.date with year := y }, t.civil.secondOfDay⟩ := by
  unfold inYear? at h
  dsimp only at h
  split at h
  · next hc =>
    cases h
    exact ⟨rfl, hc.2.2, CivilTime.ofSeconds_toSeconds hc.2.2 (CivilTime.secondOfDay_ofSeconds _)⟩
  · cases h

/-- **Where an instant falls after it was moved by whole years**: on the counterpart of its date, at
    the same time of day and with the same fraction of a second. -/
theorem civil_of_shiftYears (h : t.shiftYears k = .ok t') : t'.nanos = t.nanos ∧
    t'.civil = ⟨t.civil.date.inYear (t.year + k), t.civil.secondOfDay⟩ := by
  have hyear := year_of_shiftYears h
  unfold shiftYears at h
  dsimp only at h
  split at h
  · next hmoved =>
    cases h
    obtain ⟨hnanos, hexists, hcivil⟩ := civil_of_inYear? hmoved
    exact ⟨hnanos, by rw [hcivil, Date.inYear, if_pos hexists]⟩
  · next hnone =>
    -- the date is missing in that year, so it is a leap day, and the day after it is moved
    have hleap : t.civil.date.month = 2 ∧ ¬t.civil.date.day ≤ 28 := by
      refine Classical.byContradiction fun hn => ?_
      obtain ⟨moved, hmoved⟩ := inYear?_isSome (t := t) hyear.2.1 hyear.2.2 fun hm =>
        Classical.byContradiction fun hd => hn ⟨hm, hd⟩
      rw [hnone] at hmoved
      cases hmoved
    have hmissing : ¬Date.Exists { t.civil.date with year := t.year + k } := by
      intro hexists
      unfold inYear? at hnone
      rw [if_pos ⟨hyear.2.1, hyear.2.2, hexists⟩] at hnone
      cases hnone
    split at h
    · cases h
    · split at h
      · next hmoved =>
        cases h
        obtain ⟨hnanos, -, hcivil⟩ := civil_of_inYear? hmoved
        rw [civil_after_leapDay hleap.1 hleap.2] at hcivil
        exact ⟨hnanos, by rw [hcivil, Date.inYear, if_neg hmissing]⟩
      · cases h

/-- The seconds of an instant, by the number of its date. -/
theorem secs_eq (t : Instant) : t.secs = t.civil.date.toDays * 86400 + t.civil.secondOfDay :=
  (CivilTime.toSeconds_ofSeconds t.secs).symm

/-- **A year back and a year forth** are whole days away, as many as their dates. -/
theorem secs_of_shiftYears {last next : Instant} (hlast : t.shiftYears (-1) = .ok last)
    (hnext : t.shiftYears 1 = .ok next) :
    (t.secs - last.secs = 365 * 86400 ∨ t.secs - last.secs = 366 * 86400) ∧
    (next.secs - t.secs = 365 * 86400 ∨ next.secs - t.secs = 366 * 86400) ∧
    (next.secs - last.secs = 730 * 86400 ∨ next.secs - last.secs = 731 * 86400) := by
  have hthis := secs_eq t
  have hbefore := secs_eq last
  have hafter := secs_eq next
  rw [(civil_of_shiftYears hlast).2] at hbefore
  rw [(civil_of_shiftYears hnext).2] at hafter
  dsimp only at hbefore hafter
  have hapart : Date.YearApart t.civil.date (t.civil.date.inYear (t.year + -1))
      (t.civil.date.inYear (t.year + 1)) :=
    Date.yearApart_inYear (CivilTime.exists_ofSeconds t.secs)
  obtain ⟨hback, hforth, hboth⟩ := hapart
  refine ⟨?_, ?_, ?_⟩
  · omega
  · omega
  · omega

/-- **The fraction of the second plays no part** in where an instant is moved to. -/
theorem shiftYears_nanos (t : Instant) (nanos : Nat) (k : Int) :
    shiftYears { t with nanos := nanos } k
      = (t.shiftYears k).map ({ · with nanos := nanos }) := by
  have hfound (t : Instant) (y : Int) : inYear? { t with nanos := nanos } y
      = (t.inYear? y).map ({ · with nanos := nanos }) := by
    unfold inYear?
    dsimp only [civil]
    split
    · rfl
    · rfl
  unfold shiftYears
  dsimp only
  rw [show year { t with nanos := nanos } = t.year from rfl, hfound t,
    hfound ⟨t.secs + 86400, t.nanos⟩]
  cases t.inYear? (t.year + k) with
  | some moved => rfl
  | none =>
    dsimp only [Option.map_none]
    split
    · rfl
    · cases inYear? ⟨t.secs + 86400, t.nanos⟩ (t.year + k) with
      | some moved => rfl
      | none => rfl

end Instant

end RootAuthority
