import RootAuthority.Der.Compact

/-!
# The two narrow readers agree

Key files are read twice: by the rules for loading a key (`Der.Strict`) and by those for signing with
one (`Der.Compact`). Neither takes all that the other takes, but where both give something they give
the same (`Der.Agree`): lengths, elements, numbers and rows of numbers.
-/

namespace RootAuthority.Der

/-- **Two readers agree**: wherever both give something, it is the same. -/
def Agree {α : Type} (read read' : Octets → Option α) : Prop :=
  ∀ ⦃bs : Octets⦄ ⦃a a' : α⦄, read bs = some a → read' bs = some a' → a = a'

/-- A long length field that is read is that of its number. -/
theorem Strict.readLength_long {b : UInt8} {bs rest : Octets} {n : Nat} (hb : ¬b < 128)
    (h : readLength (b :: bs) = some (n, rest)) :
    ∃ field, Octets.splitAt? (b.toNat - 128) bs = some (field, rest) ∧ n = Octets.toNat field := by
  simp only [readLength, if_neg hb] at h
  split at h
  · cases h
  · obtain ⟨⟨field, rest'⟩, hsplit, h⟩ := Option.bind_eq_some_iff.mp h
    dsimp only at h
    split at h
    · cases h
    · obtain ⟨rfl, rfl⟩ := Prod.mk.inj (Option.some.inj h)
      exact ⟨field, hsplit, rfl⟩

/-- **Both read the same length.** -/
theorem agree_readLength : Agree Strict.readLength Compact.readLength := by
  rintro bs ⟨n, rest⟩ ⟨n', rest'⟩ h h'
  unfold Compact.readLength at h'
  split at h'
  · cases h'
  · next a bs =>
    -- one octet of length
    obtain ⟨field, hsplit, rfl⟩ := Strict.readLength_long (by decide) h
    simp only [show (0x81 : UInt8).toNat - 128 = 1 from rfl, Octets.splitAt?, Option.map_some,
      Option.some.injEq, Prod.mk.injEq] at hsplit
    obtain ⟨rfl, rfl⟩ := hsplit
    split at h'
    · cases h'
    · rw [← Option.some.inj h']
      simp [Octets.toNat]
  · next a b bs =>
    -- two octets of length
    obtain ⟨field, hsplit, rfl⟩ := Strict.readLength_long (by decide) h
    simp only [show (0x82 : UInt8).toNat - 128 = 2 from rfl, Octets.splitAt?, Option.map_some,
      Option.some.injEq, Prod.mk.injEq] at hsplit
    obtain ⟨rfl, rfl⟩ := hsplit
    split at h'
    · cases h'
    · rw [← Option.some.inj h']
      simp [Octets.toNat]
  · next b bs =>
    split at h'
    · next hb =>
      rw [Strict.readLength, if_pos hb] at h
      exact Option.some.inj (h.symm.trans h')
    · cases h'

/-- **Both find the same contents.** -/
theorem agree_readTagged (tag : UInt8) : Agree (Strict.readTagged tag) (Compact.readTagged tag) := by
  rintro bs ⟨content, rest⟩ ⟨content', rest'⟩ h h'
  cases bs with
  | nil => cases h'
  | cons t bs =>
    simp only [Strict.readTagged, Strict.readElement] at h
    simp only [Compact.readTagged] at h'
    split at h'
    · next ht =>
      obtain ⟨⟨n', field'⟩, hlength', hsplit'⟩ := Option.bind_eq_some_iff.mp h'
      obtain ⟨⟨⟨t', found⟩, left⟩, helement, htagged⟩ := Option.bind_eq_some_iff.mp h
      dsimp only at htagged
      split at helement
      · obtain ⟨⟨n, field⟩, hlength, helement⟩ := Option.bind_eq_some_iff.mp helement
        obtain ⟨⟨front, back⟩, hsplit, helement⟩ := Option.bind_eq_some_iff.mp helement
        obtain ⟨hfound, rfl⟩ := Prod.mk.inj (Option.some.inj helement)
        obtain ⟨-, rfl⟩ := Prod.mk.inj hfound
        split at htagged
        · obtain ⟨rfl, rfl⟩ := Prod.mk.inj (agree_readLength hlength hlength')
          rw [← Option.some.inj htagged]
          exact Option.some.inj (hsplit.symm.trans hsplit')
        · cases htagged
      · cases helement
    · cases h'

/-- **Both find the same only element.** -/
theorem agree_only (tag : UInt8) : Agree (Strict.only tag) (Compact.only tag) := by
  intro bs content content' h h'
  unfold Strict.only at h
  unfold Compact.only at h'
  split at h
  · next hread =>
    split at h'
    · next hread' =>
      obtain ⟨rfl, -⟩ := Prod.mk.inj (agree_readTagged tag hread hread')
      exact Option.some.inj (h.symm.trans h')
    · cases h'
  · cases h

/-- **Both read the same number.** -/
theorem agree_readUnsigned : Agree Strict.readUnsigned Compact.readUnsigned := by
  intro bs a a' h h'
  obtain ⟨⟨content, rest⟩, hread, h⟩ := Option.bind_eq_some_iff.mp h
  obtain ⟨⟨content', rest'⟩, hread', h'⟩ := Option.bind_eq_some_iff.mp h'
  obtain ⟨rfl, rfl⟩ := Prod.mk.inj (agree_readTagged 0x02 hread hread')
  exact Option.some.inj (h.symm.trans h')

/-- **Rows of things are read the same** if the things are. -/
theorem Agree.readMany {α : Type} {read read' : Octets → Option (α × Octets)}
    (h : Agree read read') : ∀ n, Agree (Octets.readMany read n) (Octets.readMany read' n)
  | 0, _, _, _, hrow, hrow' => Option.some.inj (hrow.symm.trans hrow')
  | n + 1, _, _, _, hrow, hrow' => by
      obtain ⟨⟨a, rest⟩, hread, hrow⟩ := Option.bind_eq_some_iff.mp hrow
      obtain ⟨⟨a', rest'⟩, hread', hrow'⟩ := Option.bind_eq_some_iff.mp hrow'
      obtain ⟨rfl, rfl⟩ := Prod.mk.inj (h hread hread')
      obtain ⟨more, hmore, hrow⟩ := Option.bind_eq_some_iff.mp hrow
      obtain ⟨more', hmore', hrow'⟩ := Option.bind_eq_some_iff.mp hrow'
      obtain rfl := h.readMany n hmore hmore'
      exact Option.some.inj (hrow.symm.trans hrow')

end RootAuthority.Der
