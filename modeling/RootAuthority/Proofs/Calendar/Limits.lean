import RootAuthority.Proofs.Calendar.Instant

/-!
# The limits of the calendar

The years that can be written end at -9999 and 9999. An instant within them can be moved by whole
years exactly if the target year is one of them too. If it is not, then which of the two errors
comes out depends only on the day: the search goes on to the next day, and only the last day of all
(`Date.last`) has none.

* `Instant.last_iff`: the next day is missing on the last day alone.
* `Instant.shiftYears_eq_error_iff`: when an instant cannot be moved, and with which error.
-/

namespace RootAuthority

/-- The last day that can be written. -/
def Date.last : Date := ⟨9999, 12, 31⟩

namespace Instant

variable {t : Instant} {k : Int} {e : ShiftError}

/-- **Only the last day has no next day.** -/
theorem last_iff (ht : t.Representable) :
    lastSecond < t.secs + 86400 ↔ t.civil.date = Date.last := by
  have hdays : t.civil.date.toDays = t.secs / 86400 := Date.toDays_ofDays _
  have hlast : Date.last.toDays = 2932896 := by decide
  have hexists : Date.last.Exists := by decide
  obtain ⟨-, hle⟩ := ht
  unfold lastSecond at hle ⊢
  constructor
  · intro hlt
    refine Date.eq_of_toDays_eq (CivilTime.exists_ofSeconds t.secs) hexists ?_
    omega
  · intro hdate
    rw [hdate, hlast] at hdays
    omega

/-- A year that cannot be written has no counterpart of any instant. -/
theorem inYear?_eq_none {y : Int} (hy : ¬(-9999 ≤ y ∧ y ≤ 9999)) (t : Instant) :
    t.inYear? y = none :=
  if_neg fun h => hy ⟨h.1, h.2.1⟩

/-- The last year is no leap year, so each of its days has a counterpart in every year. -/
theorem day_le_of_lastYear (hy : t.year = 9999) (hm : t.civil.date.month = 2) :
    t.civil.date.day ≤ 28 := by
  refine Classical.byContradiction fun hd => ?_
  obtain ⟨hleap, -⟩ := Date.leapDay_of_exists (CivilTime.exists_ofSeconds t.secs) hm hd
  rw [show (CivilTime.ofSeconds t.secs).date.year = 9999 from hy] at hleap
  exact absurd hleap (by decide)

/-- **When an instant can be moved by whole years**: whenever the target year can be written. -/
theorem shiftYears_isOk_iff (ht : t.Representable) :
    (∃ t', t.shiftYears k = .ok t') ↔ -9999 ≤ t.year + k ∧ t.year + k ≤ 9999 := by
  constructor
  · rintro ⟨t', h⟩
    exact (year_of_shiftYears h).2
  · rintro ⟨hlo, hhi⟩
    by_cases hy : t.year < 9999
    · exact shiftYears_ok hy hlo hhi
    · have hlast : t.year = 9999 :=
        Int.le_antisymm ((representable_iff t).mp ht).2 (Int.not_lt.mp hy)
      obtain ⟨t', hmoved⟩ := inYear?_isSome hlo hhi (day_le_of_lastYear hlast)
      unfold shiftYears
      simp only [hmoved]
      exact ⟨t', rfl⟩

/-- **When an instant cannot be moved by whole years**, and why: the target year cannot be written,
    and on the last day it is the next day that is found missing. -/
theorem shiftYears_eq_error_iff (ht : t.Representable) : t.shiftYears k = .error e ↔
    ¬(-9999 ≤ t.year + k ∧ t.year + k ≤ 9999) ∧
      e = if t.civil.date = Date.last then .noNextDay else .yearOutOfRange := by
  by_cases hy : -9999 ≤ t.year + k ∧ t.year + k ≤ 9999
  · obtain ⟨t', hok⟩ := (shiftYears_isOk_iff ht).mpr hy
    simp [hok, hy]
  · unfold shiftYears
    simp only [inYear?_eq_none hy, last_iff ht]
    split
    · simp [hy, eq_comm]
    · simp [hy, eq_comm]

end Instant

end RootAuthority
