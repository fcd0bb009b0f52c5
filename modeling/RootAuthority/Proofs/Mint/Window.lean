import RootAuthority.Proofs.Calendar.Order
import RootAuthority.Proofs.Mint

/-!
# When a minted certificate is valid

A minted certificate is valid from a calendar year before to a calendar year after the clock
(`World.mint_window`). Both ends are read back as whole seconds of Universal Time, in either of the
two written forms; they keep the time of day, and the date up to the leap day, which becomes
1 March. So the clock lies strictly between them, 365 or 366 days from each.

The fraction of the second that the clock shows changes nothing about what is minted
(`Authority.mint_nanos`).
-/

namespace RootAuthority

/-! ## 1. One end -/

/-- **A time that is so many years from an instant**: a whole second of Universal Time, on the same
    month and day and at the same time of day, except that a leap day becomes 1 March. -/
structure ZonedTime.YearsFrom (bound : ZonedTime) (t : Instant) (years : Int) : Prop where
  offset : bound.offset = 0
  nanos : bound.instant.nanos = 0
  secondOfDay : bound.instant.civil.secondOfDay = t.civil.secondOfDay
  date : bound.instant.civil.date
    = if t.civil.date.month = 2 ∧ t.civil.date.day = 29 then ⟨t.year + years, 3, 1⟩
      else ⟨t.year + years, t.civil.date.month, t.civil.date.day⟩

/-- An instant that was moved to the year before or after is that far away, to the second. -/
theorem Instant.yearsFrom_of_shiftYears {t t' : Instant} {k : Int} (h : t.shiftYears k = .ok t')
    (hk : k = -1 ∨ k = 1) : ZonedTime.YearsFrom (.utc ⟨t'.secs, 0⟩) t k := by
  have hcivil : civil (ZonedTime.utc ⟨t'.secs, 0⟩).instant
      = ⟨t.civil.date.inYear (t.year + k), t.civil.secondOfDay⟩ := (civil_of_shiftYears h).2
  have hyear : t.year + k = t.civil.date.year - 1 ∨ t.year + k = t.civil.date.year + 1 := by
    rcases hk with rfl | rfl
    · exact .inl rfl
    · exact .inr rfl
  exact
    { offset := rfl
      nanos := rfl
      secondOfDay := by rw [hcivil]
      date := by
        rw [hcivil]
        exact Date.inYear_next_or_last (CivilTime.exists_ofSeconds t.secs) hyear }

/-- **The ends of the validity** are the clock moved a year back and a year forth, to the second. -/
theorem Authority.bounds_of_mint {identity : Identity} {serial : Nat} {key : Rsa.PrivateKey}
    {now : Instant} {a : Authority} (h : mint identity serial key now = .ok a) :
    ∃ first last, now.shiftYears (-1) = .ok first ∧ now.shiftYears 1 = .ok last ∧
      a.certificate.notBefore = .utc ⟨first.secs, 0⟩ ∧
      a.certificate.notAfter = .utc ⟨last.secs, 0⟩ := by
  obtain ⟨t, signed, signature, ht, hminted⟩ := template_of_mint h
  obtain ⟨-, -, first, last, hfirst, hlast, rfl⟩ := Template.mintedAt_eq_ok_iff.mp ht
  rw [hminted.certificate]
  exact ⟨first, last, hfirst, hlast, rfl, rfl⟩

/-! ## 2. Fractions of a second -/

/-- The template is the same at every moment of a second. -/
theorem Template.mintedAt_nanos (identity : Identity) (serial : Nat) (key : Rsa.PublicKey)
    (now : Instant) (nanos : Nat) :
    mintedAt identity serial key { now with nanos := nanos } = mintedAt identity serial key now := by
  have hnow : Instant.Representable { now with nanos := nanos } ↔ now.Representable := Iff.rfl
  unfold mintedAt
  simp only [hnow, Instant.shiftYears_nanos]
  cases now.shiftYears (-1) with
  | error e => rfl
  | ok notBefore =>
    cases now.shiftYears 1 with
    | error e => rfl
    | ok notAfter => rfl

/-- **What is minted is the same at every moment of a second.** -/
theorem Authority.mint_nanos (identity : Identity) (serial : Nat) (key : Rsa.PrivateKey)
    (now : Instant) (nanos : Nat) :
    mint identity serial key { now with nanos := nanos } = mint identity serial key now := by
  unfold mint
  rw [Template.mintedAt_nanos]

namespace World

variable {w w' : World} {identity : Identity} {a : Authority}

theorem mint_nanos (w : World) (identity : Identity) (nanos : Nat) :
    (mint { w with clock := { w.clock with nanos := nanos } } identity).1
      = (w.mint identity).1 := by
  unfold mint
  dsimp only
  cases w.serials.next with
  | mk drawn serials =>
    cases drawn with
    | none => rfl
    | some serial =>
      dsimp only
      cases w.primes with
      | nil => rfl
      | cons pair primes =>
        dsimp only
        rw [Authority.mint_nanos]
        cases Authority.mint identity serial (.ofPrimes pair) w.clock with
        | error failure => rfl
        | ok authority => rfl

/-! ## 3. Both ends -/

/-- **A minted certificate is valid from a year before to a year after the clock**: each end is a
    year away by the calendar, the clock shows a time strictly between them, 365 or 366 days from
    each, and they are 730 or 731 days apart. The fraction of the second that the clock shows plays
    no part. -/
theorem mint_window (h : w.mint identity = (.ok a, w')) :
    a.certificate.notBefore.YearsFrom w.clock (-1) ∧
    a.certificate.notAfter.YearsFrom w.clock 1 ∧
    a.certificate.notBefore.instant < w.clock ∧
    w.clock < a.certificate.notAfter.instant ∧
    (w.clock.secs - a.certificate.notBefore.instant.secs = 365 * 86400 ∨
      w.clock.secs - a.certificate.notBefore.instant.secs = 366 * 86400) ∧
    (a.certificate.notAfter.instant.secs - w.clock.secs = 365 * 86400 ∨
      a.certificate.notAfter.instant.secs - w.clock.secs = 366 * 86400) ∧
    (a.certificate.notAfter.instant.secs - a.certificate.notBefore.instant.secs = 730 * 86400 ∨
      a.certificate.notAfter.instant.secs - a.certificate.notBefore.instant.secs = 731 * 86400) ∧
    ∀ nanos, (mint { w with clock := { w.clock with nanos := nanos } } identity).1 = .ok a := by
  obtain ⟨pair, t, signed, signature, -, -, ht, hminted⟩ := template_of_mint h
  obtain ⟨-, -, notBefore, notAfter, hb, ha, rfl⟩ := Template.mintedAt_eq_ok_iff.mp ht
  have hfirst : a.certificate.notBefore = .utc ⟨notBefore.secs, 0⟩ := by
    rw [hminted.certificate]
    rfl
  have hlast : a.certificate.notAfter = .utc ⟨notAfter.secs, 0⟩ := by
    rw [hminted.certificate]
    rfl
  obtain ⟨hback, hforth, hboth⟩ := Instant.secs_of_shiftYears hb ha
  rw [hfirst, hlast]
  refine ⟨Instant.yearsFrom_of_shiftYears hb (.inl rfl),
    Instant.yearsFrom_of_shiftYears ha (.inr rfl), Instant.lt_of_secs_lt ?_,
    Instant.lt_of_secs_lt ?_, hback, hforth, hboth, fun nanos => ?_⟩
  · show notBefore.secs < w.clock.secs
    omega
  · show w.clock.secs < notAfter.secs
    omega
  · rw [mint_nanos, h]

/-- The last moments of a leap day before 1970. -/
def leapDay : World := { untouched with clock := ⟨-57974401, 500000000⟩ }

/-- Both ends of the validity fall on 1 March, a second before midnight. -/
theorem mint_window_leapDay : leapDay.clock.civil = ⟨⟨1968, 2, 29⟩, 86399⟩ ∧
    ∃ a w', leapDay.mint .default = (.ok a, w') ∧
      a.certificate.notBefore.instant.civil = ⟨⟨1967, 3, 1⟩, 86399⟩ ∧
      a.certificate.notAfter.instant.civil = ⟨⟨1969, 3, 1⟩, 86399⟩ := by
  have hclock : leapDay.clock.civil = ⟨⟨1968, 2, 29⟩, 86399⟩ := by decide +kernel
  have hcan : leapDay.CanMint .default :=
    { canMint_untouched with
      earliest := by decide +kernel
      latest := by decide +kernel }
  obtain ⟨a, w', h⟩ := mint_succeeds hcan
  obtain ⟨hfirst, hlast, -⟩ := mint_window h
  have hdate := hfirst.date
  have hdate' := hlast.date
  have hday := hfirst.secondOfDay
  have hday' := hlast.secondOfDay
  rw [Instant.year, hclock] at hdate hdate'
  rw [hclock] at hday hday'
  refine ⟨hclock, a, w', h, ?_, ?_⟩
  · exact congrArg₂ CivilTime.mk hdate hday
  · exact congrArg₂ CivilTime.mk hdate' hday'

end World

end RootAuthority
