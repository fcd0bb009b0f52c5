import RootAuthority.Proofs.Mint.Window

/-!
# Certificates minted one after the other

The ends of a validity are the clock moved by a calendar year, and moving by a year keeps the order
of instants, up to one day: 29 February and the 1 March behind it are moved to one date. So a
certificate that is minted later does not expire earlier, unless the two were minted on these two
days and the second one at an earlier time of day (`Instant.shiftYears_order`).
-/

namespace RootAuthority

namespace World

variable {w w' x x' : World} {identity identity' : Identity} {a b : Authority}

/-- **A certificate that is minted later does not expire earlier**, unless the moments of minting
    trade places. -/
theorem notAfter_le (h : w.mint identity = (.ok a, w')) (h' : x.mint identity' = (.ok b, x'))
    (hle : w.clock ≤ x.clock) (hplaces : ¬w.clock.TradePlaces x.clock) :
    a.certificate.notAfter.instant ≤ b.certificate.notAfter.instant := by
  obtain ⟨_, _, _, _, -, -, hmint⟩ := mint_ok h
  obtain ⟨_, _, _, _, -, -, hmint'⟩ := mint_ok h'
  obtain ⟨-, last, -, hlast, -, hafter⟩ := Authority.bounds_of_mint hmint
  obtain ⟨-, last', -, hlast', -, hafter'⟩ := Authority.bounds_of_mint hmint'
  have hlasts : last ≤ last' := Instant.shiftYears_le hle hplaces hlast hlast'
  rw [hafter, hafter']
  exact (Int.lt_or_eq_of_le (Instant.secs_le_of_le hlasts)).imp_right fun hsecs =>
    ⟨hsecs, Nat.le_refl 0⟩

end World

namespace Instant

variable {t u : Instant}

/-- **Moving by a year keeps the order of instants**, except for two that trade places: one on a
    leap day and one on the 1 March behind it, at an earlier time of day. Those end up in the other
    order, less than 24 hours apart. Two instants are moved to the same one only if they are the
    same or fall on these two days at the same time of day. So certificates expire in the order in
    which they were minted, outside that one day. -/
theorem shiftYears_order (h : t ≤ u) :
    (∀ k t' u', k = 1 ∨ k = -1 → t.shiftYears k = .ok t' → u.shiftYears k = .ok u' →
      (¬t.TradePlaces u → t' ≤ u') ∧ (t.TradePlaces u → u' < t' ∧ t' < u'.nextDay) ∧
      (t' = u' ↔ t = u ∨
        t.civil.date.AcrossLeapDay u.civil.date ∧ t.timeOfDay = u.timeOfDay)) ∧
    ∀ w x w' x' identity identity' a b, World.clock w = t → World.clock x = u →
      w.mint identity = (.ok a, w') → x.mint identity' = (.ok b, x') → ¬t.TradePlaces u →
      a.certificate.notAfter.instant ≤ b.certificate.notAfter.instant := by
  constructor
  · intro k t' u' hk ht hu
    have hones : Date.BecomeOne t.civil.date u.civil.date k
        ↔ t.civil.date.AcrossLeapDay u.civil.date :=
      ⟨fun hone => hone.toAcrossLeapDay,
        fun hdates => hdates.becomeOne (CivilTime.exists_ofSeconds t.secs) hk⟩
    refine ⟨fun hplaces => shiftYears_le h hplaces ht hu,
      fun hplaces => hplaces.shifted hk ht hu, ?_⟩
    rw [shiftYears_eq_iff h ht hu, hones]
  · rintro w x w' x' identity identity' a b rfl rfl hmint hmint' hplaces
    exact World.notAfter_le hmint hmint' h hplaces

end Instant

namespace World

/-- The first of March behind the leap day, at eight in the morning. -/
def firstOfMarch : Instant := ⟨-57945600, 0⟩

/-- The second of March, at the same time. -/
def secondOfMarch : World := { untouched with clock := firstOfMarch.nextDay }

/-- The last moment of a leap day and the morning behind it trade places; a certificate that is
    minted on the next morning expires later. -/
theorem shiftYears_order_leapDay :
    (∃ t' u', leapDay.clock.shiftYears 1 = .ok t' ∧ firstOfMarch.shiftYears 1 = .ok u' ∧
      u' < t' ∧ t' < u'.nextDay) ∧
    ∃ a b w' x', leapDay.mint .default = (.ok a, w') ∧ secondOfMarch.mint .default = (.ok b, x') ∧
      a.certificate.notAfter.instant ≤ b.certificate.notAfter.instant := by
  have hplaces : leapDay.clock.TradePlaces firstOfMarch :=
    ⟨⟨by decide +kernel, by decide +kernel⟩, by decide +kernel⟩
  have hdates : secondOfMarch.clock.civil.date ≠ ⟨leapDay.clock.civil.date.year, 3, 1⟩ := by
    decide +kernel
  have hcan : leapDay.CanMint .default :=
    { canMint_untouched with
      earliest := by decide +kernel
      latest := by decide +kernel }
  have hcan' : secondOfMarch.CanMint .default :=
    { canMint_untouched with
      earliest := by decide +kernel
      latest := by decide +kernel }
  obtain ⟨a, w', hmint⟩ := mint_succeeds hcan
  obtain ⟨b, x', hmint'⟩ := mint_succeeds hcan'
  obtain ⟨hmoved, -⟩ := Instant.shiftYears_order (t := leapDay.clock) (u := firstOfMarch)
    (.inl (by decide))
  obtain ⟨-, hexpiry⟩ := Instant.shiftYears_order (t := leapDay.clock) (u := secondOfMarch.clock)
    (.inl (by decide))
  have ht : leapDay.clock.shiftYears 1 = .ok ⟨-26352001, 500000000⟩ := by decide +kernel
  have hu : firstOfMarch.shiftYears 1 = .ok ⟨-26409600, 0⟩ := by decide +kernel
  refine ⟨⟨_, _, ht, hu, (hmoved 1 _ _ (.inl rfl) ht hu).2.1 hplaces⟩, a, b, w', x', hmint, hmint',
    hexpiry _ _ _ _ _ _ _ _ rfl rfl hmint hmint' fun h => hdates h.dates.firstOfMarch⟩

end World

end RootAuthority
