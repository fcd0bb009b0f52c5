import RootAuthority.Proofs.Bootstrap.Binding

/-!
# Nothing on disk keeps a root authority from being returned

Whatever the two files hold, a run ends with an authority (`Bootstrapper.bootstrap_available`): no
octets make the reading of a certificate or of a key crash (`Certificate.decode_completes`,
`Rsa.PrivateKey.decode_completes`), and what cannot be loaded is replaced. It takes places for the
two files and all that minting needs.
-/

namespace RootAuthority.Bootstrapper

variable {b : Bootstrapper} {w : World}

/-- **A run returns an authority, whatever the files hold.** Certificates and keys are read without
    a crash from all octets there are, with the result that loading goes by. The paths of the two
    files lead to different places, each with a file or nothing there, once the storage directory
    was created if it was missing. A generated authority is what both files hold afterwards, for the
    owner alone. -/
theorem bootstrap_available (hw : w.files.WellFormed)
    (hplaces : ∃ certificate key, b.Places (b.locator.prepare w.files) certificate key)
    (hmint : w.CanMint b.identity) :
    (∀ octets, Certificate.decode octets = .ok (Certificate.ofDer octets) ∧
      Rsa.PrivateKey.decode octets = .ok (Rsa.PrivateKey.ofContainer octets)) ∧
    ∃ a w', b.bootstrap w = (.ok a, w') ∧ (a.origin = .recovered ∨ a.origin = .generated ∧
      (∃ loc, w'.files.locate true b.certificateAt
        = .ok ⟨loc, some (.file 0o600 a.certificate.der), false⟩) ∧
      (∃ loc, w'.files.locate true b.keyAt
        = .ok ⟨loc, some (.file 0o600 a.privateKey.container), false⟩)) := by
  refine ⟨fun octets => ⟨withoutCrash_eq_iff.mp rfl, withoutCrash_eq_iff.mp rfl⟩, ?_⟩
  obtain ⟨certificate, key, hp⟩ := hplaces
  obtain ⟨a, w', h, hcases⟩ := bootstrap_of_places (Locator.settled_prepare hw) hp hmint
  refine ⟨a, w', h, ?_⟩
  rcases hcases with hfound | ⟨horigin, hfiles⟩
  · obtain ⟨-, -, -, horigin⟩ := found_eq_ok_iff.mp hfound
    exact .inl horigin
  · have hheld := hp.holds a
    rw [← hfiles] at hheld
    exact .inr ⟨horigin, hheld.certificate, hheld.key⟩

/-- A key with a prime of one. -/
def primeOne : Rsa.SigningKey := ⟨⟨15, 3, 3, 1, 15⟩, 0, 0, 0⟩

/-- A minted certificate beside a key with a prime of one. Modulo that prime less one there is a
    crash, so the key is refused before; both files are replaced. -/
theorem bootstrap_available_primeOne : ∃ c : Certificate,
    Certificate.decode c.der = .ok (.ok c) ∧
    (∃ crash, primeOne.key.undoesAt primeOne.key.prime1 = .error crash) ∧
    Rsa.PrivateKey.decode primeOne.encodeContainer = .ok (.error .rsa) ∧
    ∃ a w', inStore.bootstrap (twoFiles c.der primeOne.encodeContainer) = (.ok a, w') ∧
      a.origin = .generated ∧
      (∃ loc, w'.files.locate true "/store/ca.der"
        = .ok ⟨loc, some (.file 0o600 a.certificate.der), false⟩) ∧
      (∃ loc, w'.files.locate true "/store/caKey.der"
        = .ok ⟨loc, some (.file 0o600 a.privateKey.container), false⟩) := by
  obtain ⟨minted, _, _, _, _, -, hminted⟩ := World.exists_minted_untouched
  have hw := wellFormed_twoFiles minted.certificate.der primeOne.encodeContainer
  obtain ⟨hdecodes, a, w', h, hcases⟩ := bootstrap_available (b := inStore) hw
    ⟨_, _, places_twoFiles _ _⟩ (World.canMint_untouched.report _ [])
  have hcertificate : Certificate.decode minted.certificate.der = .ok (.ok minted.certificate) := by
    rw [(hdecodes _).1, hminted.readBack]
  refine ⟨minted.certificate, hcertificate,
    Rsa.PrivateKey.undoesAt_crashes_iff.mpr (Nat.le_refl 1), rfl, a, w', h, ?_⟩
  rcases hcases with hrecovered | hgenerated
  · -- the key that was recovered would be the one that is refused
    obtain ⟨events, hload⟩ := load_eq (b := inStore) (Locator.settled_prepare hw)
    have hfound := (Prod.mk.inj (hload.symm.trans (load_of_recovered h hrecovered))).1
    have hrefused : (inStore.locator.prepare
        (twoFiles minted.certificate.der primeOne.encodeContainer).files).readPrivateKey inStore.keyAt
          = .error (.undecodable "/store/caKey.der" .rsa) := rfl
    obtain ⟨-, hkey, -, -⟩ := found_eq_ok_iff.mp hfound
    rw [hrefused] at hkey
    cases hkey
  · exact hgenerated

end RootAuthority.Bootstrapper
