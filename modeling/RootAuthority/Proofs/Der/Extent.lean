import RootAuthority.Certificate.Reader
import RootAuthority.Der.Strict

/-!
# How far a reader reads

The length in front of an element fixes where it ends. So what follows an element is left over as it
is, and nothing that was read depends on it (`Delimits`). Octets that were read to their end are
therefore not read any more when some of them are cut off at the end, and when further octets are
put behind them, exactly these are left over:

* `Delimits.eq_none_of_cut`: octets with their end cut off are not read;
* `Certificate.delimits_readTagged`, `Strict.delimits_readTagged`: the two readers by which the
  outermost element of a certificate and of a key container is found;
* `Strict.only_eq_none_of_torn`: an element that is all there is is lost, whichever of the two
  happens to it (`Octets.Torn`).
-/

namespace RootAuthority

/-! ## 1. Torn octets -/

/-- **Octets that are not the whole**, but begin like it: they end sooner, or go on behind it. -/
def Octets.Torn (whole found : Octets) : Prop :=
  found ≠ whole ∧ (found <+: whole ∨ whole <+: found)

theorem Octets.Torn.cases {whole found : Octets} (h : whole.Torn found) :
    (∃ more, more ≠ [] ∧ whole = found ++ more) ∨ (∃ more, more ≠ [] ∧ found = whole ++ more) := by
  obtain ⟨hne, ⟨more, hcut⟩ | ⟨more, hpadded⟩⟩ := h
  · refine .inl ⟨more, fun hnil => hne ?_, hcut.symm⟩
    rw [← hcut, hnil, List.append_nil]
  · refine .inr ⟨more, fun hnil => hne ?_, hpadded.symm⟩
    rw [← hpadded, hnil, List.append_nil]

/-- Octets with others behind them are torn. -/
theorem Octets.torn_append {whole more : Octets} (h : more ≠ []) : whole.Torn (whole ++ more) :=
  ⟨fun heq => h (List.append_right_eq_self.mp heq), .inr (List.prefix_append whole more)⟩

namespace Der

/-! ## 2. Readers -/

/-- **A reader fixes by itself how far it reads**: whatever is put behind the octets is left over as
    it is, and changes nothing about what is read. -/
def Delimits {α : Type} (read : Octets → Option (α × Octets)) : Prop :=
  ∀ ⦃bs : Octets⦄ ⦃a : α⦄ ⦃rest : Octets⦄, read bs = some (a, rest) →
    ∀ more, read (bs ++ more) = some (a, rest ++ more)

/-- **Octets that were read to their end are not read without it.** -/
theorem Delimits.eq_none_of_cut {α : Type} {read : Octets → Option (α × Octets)}
    (h : Delimits read) {front more : Octets} {a : α} (hread : read (front ++ more) = some (a, []))
    (hmore : more ≠ []) : read front = none := by
  cases hfront : read front with
  | none => rfl
  | some found =>
    obtain ⟨a', rest⟩ := found
    have hwhole := h hfront more
    rw [hread] at hwhole
    obtain ⟨-, hrest⟩ := Prod.mk.inj (Option.some.inj hwhole)
    exact (hmore (List.append_eq_nil_iff.mp hrest.symm).2).elim

theorem delimits_splitAt? : ∀ n, Delimits (Octets.splitAt? n)
  | n, bs, front, rest, h, more => by
      obtain ⟨rfl, rfl⟩ := Octets.splitAt?_eq_some h
      rw [List.append_assoc, Octets.splitAt?_append]

theorem delimits_readTagNumber : ∀ k n, Delimits (readTagNumber k n)
  | 0, _, _, _, _, h, _ => by simp [readTagNumber] at h
  | _ + 1, _, [], _, _, h, _ => by simp [readTagNumber] at h
  | k + 1, n, b :: bs, m, rest, h, more => by
      rw [readTagNumber] at h
      rw [List.cons_append, readTagNumber]
      split at h
      · next hlast =>
        obtain ⟨rfl, rfl⟩ := Prod.mk.inj (Option.some.inj h)
        rw [if_pos hlast]
      · next hlast =>
        rw [if_neg hlast]
        exact delimits_readTagNumber k _ h more

theorem delimits_readTag : Delimits readTag := by
  intro bs tag rest h more
  cases bs with
  | nil => cases h
  | cons b bs =>
    simp only [readTag] at h
    simp only [List.cons_append, readTag]
    split at h
    · next hlong =>
      obtain ⟨⟨n, rest'⟩, hnumber, htag⟩ := Option.map_eq_some_iff.mp h
      obtain ⟨rfl, rfl⟩ := Prod.mk.inj htag
      rw [if_pos hlong, delimits_readTagNumber 5 0 hnumber more, Option.map_some]
    · next hshort =>
      obtain ⟨rfl, rfl⟩ := Prod.mk.inj (Option.some.inj h)
      rw [if_neg hshort]

theorem delimits_readLength : Delimits readLength := by
  intro bs field rest h more
  cases bs with
  | nil => cases h
  | cons b bs =>
    simp only [readLength] at h
    simp only [List.cons_append, readLength]
    split at h
    · next hshort =>
      obtain ⟨rfl, rfl⟩ := Prod.mk.inj (Option.some.inj h)
      rw [if_pos hshort]
    · next hshort =>
      rw [if_neg hshort]
      split at h
      · next hindefinite =>
        obtain ⟨rfl, rfl⟩ := Prod.mk.inj (Option.some.inj h)
        rw [if_pos hindefinite]
      · next hindefinite =>
        rw [if_neg hindefinite]
        split at h
        · cases h
        · next hreserved =>
          rw [if_neg hreserved]
          obtain ⟨⟨octets, rest'⟩, hsplit, h⟩ := Option.bind_eq_some_iff.mp h
          obtain ⟨hfits, h⟩ := Option.ite_none_right_eq_some.mp h
          obtain ⟨rfl, rfl⟩ := Prod.mk.inj (Option.some.inj h)
          rw [delimits_splitAt? _ hsplit more]
          exact if_pos hfits

/-- **An element ends where its length says.** -/
theorem delimits_readElement : Delimits readElement := by
  intro bs e rest h more
  obtain ⟨⟨tag, bs₁⟩, htag, h⟩ := Option.bind_eq_some_iff.mp h
  obtain ⟨⟨field, bs₂⟩, hlength, h⟩ := Option.bind_eq_some_iff.mp h
  have htag' := delimits_readTag htag more
  have hlength' := delimits_readLength hlength more
  cases field with
  | indefinite => cases h
  | definite n =>
    obtain ⟨⟨content, rest'⟩, hsplit, h⟩ := Option.bind_eq_some_iff.mp h
    obtain ⟨rfl, rfl⟩ := Prod.mk.inj (Option.some.inj h)
    have hsplit' := delimits_splitAt? n hsplit more
    simp [readElement, htag', hlength', hsplit']

end Der

theorem Certificate.delimits_readTagged (number : Nat) : Der.Delimits (readTagged number) := by
  intro bs content rest h more
  obtain ⟨⟨e, rest'⟩, helement, h⟩ := Option.bind_eq_some_iff.mp h
  obtain ⟨htag, h⟩ := Option.ite_none_right_eq_some.mp h
  obtain ⟨rfl, rfl⟩ := Prod.mk.inj (Option.some.inj h)
  simp [readTagged, Der.delimits_readElement helement more, htag]

/-! ## 3. Readers of key files -/

namespace Der.Strict

theorem delimits_readLength : Delimits readLength := by
  intro bs n rest h more
  cases bs with
  | nil => cases h
  | cons b bs =>
    simp only [readLength] at h
    simp only [List.cons_append, readLength]
    split at h
    · next hshort =>
      obtain ⟨rfl, rfl⟩ := Prod.mk.inj (Option.some.inj h)
      rw [if_pos hshort]
    · next hshort =>
      rw [if_neg hshort]
      split at h
      · cases h
      · next hreserved =>
        rw [if_neg hreserved]
        obtain ⟨⟨octets, rest'⟩, hsplit, h⟩ := Option.bind_eq_some_iff.mp h
        obtain ⟨hleast, h⟩ := Option.ite_none_left_eq_some.mp h
        obtain ⟨rfl, rfl⟩ := Prod.mk.inj (Option.some.inj h)
        rw [delimits_splitAt? _ hsplit more]
        exact if_neg hleast

/-- **An element of a key file ends where its length says.** -/
theorem delimits_readElement : Delimits readElement := by
  intro bs e rest h more
  cases bs with
  | nil => cases h
  | cons b bs =>
    simp only [readElement] at h
    simp only [List.cons_append, readElement]
    obtain ⟨htag, h⟩ := Option.ite_none_right_eq_some.mp h
    obtain ⟨⟨n, bs₁⟩, hlength, h⟩ := Option.bind_eq_some_iff.mp h
    obtain ⟨⟨content, rest'⟩, hsplit, h⟩ := Option.bind_eq_some_iff.mp h
    obtain ⟨rfl, rfl⟩ := Prod.mk.inj (Option.some.inj h)
    rw [if_pos htag, delimits_readLength hlength more]
    simp [delimits_splitAt? n hsplit more]

theorem delimits_readTagged (tag : UInt8) : Delimits (readTagged tag) := by
  intro bs content rest h more
  obtain ⟨⟨⟨t, content'⟩, rest'⟩, helement, h⟩ := Option.bind_eq_some_iff.mp h
  obtain ⟨htag, h⟩ := Option.ite_none_right_eq_some.mp h
  obtain ⟨rfl, rfl⟩ := Prod.mk.inj (Option.some.inj h)
  simp [readTagged, delimits_readElement helement more, htag]

/-- **The only element** is the one in front, with nothing left over. -/
theorem only_eq_some_iff {tag : UInt8} {bs content : Octets} :
    only tag bs = some content ↔ readTagged tag bs = some (content, []) := by
  unfold only
  split
  · next hread =>
    rw [hread, Option.some.injEq, Option.some.injEq, Prod.mk.injEq, and_iff_left rfl]
  · next hrest =>
    exact ⟨nofun, fun h => (hrest _ h).elim⟩

/-- **Torn octets are not one element any more.** -/
theorem only_eq_none_of_torn {tag : UInt8} {whole found content : Octets}
    (h : only tag whole = some content) (htorn : whole.Torn found) : only tag found = none := by
  have hwhole := only_eq_some_iff.mp h
  refine Option.eq_none_iff_forall_ne_some.mpr fun content' hfound => ?_
  have hfound' := only_eq_some_iff.mp hfound
  obtain ⟨more, hmore, rfl⟩ | ⟨more, hmore, rfl⟩ := htorn.cases
  · rw [(delimits_readTagged tag).eq_none_of_cut hwhole hmore] at hfound'
    cases hfound'
  · rw [(delimits_readTagged tag).eq_none_of_cut hfound' hmore] at hwhole
    cases hwhole

end Der.Strict

end RootAuthority
