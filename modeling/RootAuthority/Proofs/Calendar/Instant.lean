import RootAuthority.Calendar.Instant
import RootAuthority.Proofs.Calendar.Date

/-!
# Instants and the years they fall in

* `Instant.representable_iff`: the instants that can be written are those of the years -9999 to
  9999.
* `Instant.shiftYears_ok`: moving by whole years gives an instant of the target year, wherever that
  year can be written and the instant is not one of the last year.
-/

namespace RootAuthority

namespace Date

/-! ## 1. Leap days -/

/-- The day after a leap day is the first of March. -/
theorem toDays_leapDay {y : Int} (h : isLeapYear y = true) :
    toDays ⟨y, 3, 1⟩ = toDays ⟨y, 2, 29⟩ + 1 := by
  have hs := marchStart_succ (y - 1)
  rw [Int.sub_add_cancel, if_pos h] at hs
  rw [toDays_eq, toDays_eq]
  simp [marchYear, marchMonth, monthStart]
  omega

/-- A day of February that comes after the 28th is a leap day. -/
theorem leapDay_of_exists {d : Date} (h : d.Exists) (hm : d.month = 2) (hd : ¬d.day ≤ 28) :
    isLeapYear d.year = true ∧ d = ⟨d.year, 2, 29⟩ := by
  obtain ⟨-, hle⟩ := h
  unfold daysInMonth at hle
  rw [if_pos hm] at hle
  split at hle
  · next hleap =>
    have hday : d.day = 29 := by omega
    cases d
    subst hm hday
    exact ⟨hleap, rfl⟩
  · omega

/-- Only a leap day can be missing in another year. -/
theorem exists_inYear {d : Date} (h : d.Exists) (hd : ¬(d.month = 2 ∧ d.day = 29)) (y : Int) :
    Exists { d with year := y } := by
  obtain ⟨hpos, hle⟩ := h
  refine ⟨hpos, ?_⟩
  show d.day ≤ daysInMonth y d.month
  unfold daysInMonth at hle ⊢
  by_cases hfeb : d.month = 2
  · rw [if_pos hfeb] at hle ⊢
    have hday : d.day ≠ 29 := fun hday => hd ⟨hfeb, hday⟩
    split at hle <;> split <;> omega
  · rw [if_neg hfeb] at hle ⊢
    exact hle

end Date

namespace CivilTime

/-! ## 2. Seconds -/

@[simp]
theorem toSeconds_ofSeconds (s : Int) : (ofSeconds s).toSeconds = s := by
  unfold toSeconds ofSeconds
  dsimp only
  rw [Date.toDays_ofDays]
  omega

theorem secondOfDay_ofSeconds (s : Int) : (ofSeconds s).secondOfDay < 86400 := by
  unfold ofSeconds
  dsimp only
  omega

/-- **A date and time of day that exist are those of their second.** -/
theorem ofSeconds_toSeconds {c : CivilTime} (hd : c.date.Exists) (hs : c.secondOfDay < 86400) :
    ofSeconds c.toSeconds = c := by
  have hdays : c.toSeconds / 86400 = c.date.toDays := by
    unfold toSeconds
    omega
  have hsecs : (c.toSeconds % 86400).toNat = c.secondOfDay := by
    unfold toSeconds
    omega
  unfold ofSeconds
  rw [hdays, hsecs, Date.ofDays_toDays hd]

theorem exists_ofSeconds (s : Int) : (ofSeconds s).date.Exists := Date.exists_ofDays _

end CivilTime

namespace Instant

/-! ## 3. Years -/

/-- **The instants that can be written** are those of the years -9999 to 9999. -/
theorem representable_iff (t : Instant) : t.Representable ↔ -9999 ≤ t.year ∧ t.year ≤ 9999 := by
  obtain ⟨hlo, hhi⟩ := Date.toDays_bounds (Date.exists_ofDays (t.secs / 86400))
  rw [Date.toDays_ofDays] at hlo hhi
  have hy : (Date.ofDays (t.secs / 86400)).year = t.year := rfl
  have hepoch : Date.epochOffset = 719468 := rfl
  rw [hy, hepoch] at hlo hhi
  unfold Representable firstSecond lastSecond
  constructor
  · rintro ⟨hfirst, hlast⟩
    constructor
    · refine Int.not_lt.mp fun hlt => ?_
      have h := Date.marchStart_mono (show t.year ≤ -10000 by omega)
      have : Date.marchStart (-10000) = -3652425 := rfl
      omega
    · refine Int.not_lt.mp fun hlt => ?_
      have h := Date.marchStart_mono (show 9999 ≤ t.year - 1 by omega)
      have : Date.marchStart 9999 = 3652059 := rfl
      omega
  · rintro ⟨hfirst, hlast⟩
    have h1 := Date.marchStart_mono (show -10000 ≤ t.year - 1 by omega)
    have h2 := Date.marchStart_mono hlast
    have : Date.marchStart (-10000) = -3652425 := rfl
    have : Date.marchStart 9999 = 3652059 := rfl
    omega

/-! ## 4. Moving by whole years -/

/-- An instant found in a year falls in it, and the year can be written. -/
theorem year_of_inYear? {t t' : Instant} {y : Int} (h : t.inYear? y = some t') :
    t'.year = y ∧ -9999 ≤ y ∧ y ≤ 9999 := by
  unfold inYear? at h
  dsimp only at h
  split at h
  · next hc =>
    cases h
    have hback := CivilTime.ofSeconds_toSeconds (c := ⟨_, t.civil.secondOfDay⟩) hc.2.2
      (CivilTime.secondOfDay_ofSeconds _)
    exact ⟨congrArg (·.date.year) hback, hc.1, hc.2.1⟩
  · cases h

/-- An instant moved by whole years falls in the year asked for, which can be written. -/
theorem year_of_shiftYears {t t' : Instant} {k : Int} (h : t.shiftYears k = .ok t') :
    t'.year = t.year + k ∧ -9999 ≤ t.year + k ∧ t.year + k ≤ 9999 := by
  unfold shiftYears at h
  dsimp only at h
  split at h
  · next hmoved =>
    cases h
    exact year_of_inYear? hmoved
  · split at h
    · cases h
    · split at h
      · next hmoved =>
        cases h
        exact year_of_inYear? hmoved
      · cases h

/-- A year that can be written has an instant at the same month, day and time, unless the day is a
    leap day. -/
theorem inYear?_isSome {t : Instant} {y : Int} (h1 : -9999 ≤ y) (h2 : y ≤ 9999)
    (hd : t.civil.date.month = 2 → t.civil.date.day ≤ 28) : ∃ t', t.inYear? y = some t' := by
  have he : Date.Exists { t.civil.date with year := y } := by
    refine Date.exists_inYear (CivilTime.exists_ofSeconds t.secs) (fun hleap => ?_) y
    have hday := hd hleap.1
    rw [show t.civil.date.day = 29 from hleap.2] at hday
    exact absurd hday (by decide)
  unfold inYear?
  rw [if_pos ⟨h1, h2, he⟩]
  exact ⟨_, rfl⟩

/-- A day after a leap day it is the first of March, at the same time of day. -/
theorem civil_after_leapDay {t : Instant} (hm : t.civil.date.month = 2)
    (hd : ¬t.civil.date.day ≤ 28) :
    civil ⟨t.secs + 86400, t.nanos⟩ = ⟨⟨t.year, 3, 1⟩, t.civil.secondOfDay⟩ := by
  obtain ⟨hleap, hdate⟩ := Date.leapDay_of_exists (CivilTime.exists_ofSeconds t.secs) hm hd
  change t.civil.date = ⟨t.year, 2, 29⟩ at hdate
  have hdays : t.civil.date.toDays = t.secs / 86400 := Date.toDays_ofDays _
  have hnext := Date.toDays_leapDay hleap
  change Date.toDays ⟨t.year, 3, 1⟩ = Date.toDays ⟨t.year, 2, 29⟩ + 1 at hnext
  rw [← hdate, hdays] at hnext
  have hdiv : (t.secs + 86400) / 86400 = Date.toDays ⟨t.year, 3, 1⟩ := by omega
  have hmod : (t.secs + 86400) % 86400 = t.secs % 86400 := by omega
  have hexists : Date.Exists ⟨t.year, 3, 1⟩ := ⟨Nat.le_refl 1, (by decide : 1 ≤ 31)⟩
  show CivilTime.ofSeconds (t.secs + 86400) = _
  rw [CivilTime.ofSeconds, hdiv, hmod, Date.ofDays_toDays hexists]
  rfl

/-- Before the last year there is always another day. -/
theorem next_day_le {t : Instant} (hy : t.year < 9999) : t.secs + 86400 ≤ lastSecond := by
  have hlt := (Date.toDays_bounds (Date.exists_ofDays (t.secs / 86400))).2
  rw [Date.toDays_ofDays] at hlt
  have hmono := Date.marchStart_mono (show t.year ≤ 9998 by omega)
  have : Date.marchStart 9998 = 3651694 := rfl
  have : Date.epochOffset = 719468 := rfl
  change _ < Date.marchStart t.year + 306 at hlt
  unfold lastSecond
  omega

/-- **Moving by whole years** gives an instant of any year that can be written. -/
theorem shiftYears_ok {t : Instant} {k : Int} (hy : t.year < 9999)
    (h1 : -9999 ≤ t.year + k) (h2 : t.year + k ≤ 9999) : ∃ t', t.shiftYears k = .ok t' := by
  unfold shiftYears
  dsimp only
  split
  · next moved _ => exact ⟨moved, rfl⟩
  · next hnone =>
    have hleap : t.civil.date.month = 2 ∧ ¬t.civil.date.day ≤ 28 := by
      refine Classical.byContradiction fun hn => ?_
      obtain ⟨t', ht'⟩ := inYear?_isSome h1 h2 (t := t) fun hm =>
        Classical.byContradiction fun hd => hn ⟨hm, hd⟩
      rw [hnone] at ht'
      cases ht'
    have hnext := next_day_le hy
    rw [if_neg (Int.not_lt.mpr hnext)]
    -- the day after a leap day is a first of March, which no year lacks
    obtain ⟨t', ht'⟩ := inYear?_isSome (t := ⟨t.secs + 86400, t.nanos⟩) h1 h2 fun hm => by
      rw [civil_after_leapDay hleap.1 hleap.2] at hm
      cases hm
    rw [ht']
    exact ⟨t', rfl⟩

end Instant

end RootAuthority
