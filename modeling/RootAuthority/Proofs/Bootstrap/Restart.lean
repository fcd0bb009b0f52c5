import RootAuthority.Proofs.Bootstrap.Store

/-!
# A root authority outlives the program

What a run returned is found by every later run that looks in the same places
(`Bootstrapper.bootstrap_again`): a recovered authority because nothing was changed, a generated one
because what was written is read back, octet by octet, and its key belongs to its certificate.
-/

namespace RootAuthority

/-! ## 1. Minted authorities are read back -/

namespace Authority.Minted

variable {a : Authority} {key : Rsa.PrivateKey} {t : Template} {signed signature : Octets}

/-- The key belongs to the certificate. -/
theorem keyMatches (h : a.Minted key t signed signature) : a.keyMatches = true := by
  rw [Authority.keyMatches, decide_eq_true_eq, h.privateKey, h.certificate]
  show key.publicKey.encode = t.publicKey.encode
  rw [h.publicKey]

/-- The container of a fresh key is read back. -/
theorem ofContainer_container {pair : Rsa.PrimePair} (hpair : pair.IsFresh)
    (h : a.Minted (.ofPrimes pair) t signed signature) :
    StoredKey.ofContainer a.privateKey.container = .ok a.privateKey := by
  have hread := Rsa.PrivateKey.ofContainer_encodeContainer (Rsa.SigningKey.isShort_ofPrimes hpair)
    (Rsa.PrivateKey.isValid_ofPrimes hpair)
  rw [Rsa.SigningKey.encodeContainer_ofKey] at hread
  rw [h.privateKey, StoredKey.ofKey, StoredKey.ofContainer, hread]
  rfl

end Authority.Minted

namespace Bootstrapper

variable {b b' : Bootstrapper} {fs : FileSystem} {w w₁ w₂ : World} {a : Authority}

/-- **What is found** where the files hold a certificate and a key that are read back. -/
theorem found_of_contains {c : Certificate} {k : StoredKey}
    (hc : fs.Contains b.certificateAt c.der) (hk : fs.Contains b.keyAt k.container)
    (hcertificate : Certificate.ofDer c.der = .ok c)
    (hkey : StoredKey.ofContainer k.container = .ok k) :
    b.found fs = b.pair b.certificateAt b.keyAt c k := by
  have hreadCertificate : fs.readCertificate b.certificateAt = .ok c :=
    FileSystem.readCertificate_eq_ok_iff.mpr ⟨_, hc.read, hcertificate⟩
  have hreadKey : fs.readPrivateKey b.keyAt = .ok k :=
    FileSystem.readPrivateKey_eq_ok_iff.mpr ⟨_, hk.read, hkey⟩
  rw [found, hreadCertificate, hreadKey]
  rfl

/-- **An authority that is held is found**, if its octets are read back. -/
theorem found_of_holds (h : b.Holds fs a)
    (hcertificate : Certificate.ofDer a.certificate.der = .ok a.certificate)
    (hkey : StoredKey.ofContainer a.privateKey.container = .ok a.privateKey)
    (hmatches : a.keyMatches = true) : b.found fs = .ok { a with origin := .recovered } := by
  rw [found_of_contains h.certificate h.key hcertificate hkey]
  exact pair_eq_ok_iff.mpr ⟨fun _ => hmatches, rfl⟩

/-! ## 2. The next run -/

/-- A run that finds an authority returns it and changes the log only. -/
theorem bootstrap_of_found (hs : b.locator.Settled w.files) (h : b.found w.files = .ok a) :
    ∃ events, b.bootstrap w = (.ok a, w.report events) := by
  obtain ⟨events, hload⟩ := load_of_settled hs
  rw [bootstrap, hload, h]
  exact ⟨events, rfl⟩

/-- What a run leaves behind: nothing to prepare, and the authority to be found by anyone who looks
    in the same places, whether or not the binding of the key is asked for, unless it was not asked
    for before. -/
theorem found_of_bootstrap (hw : w.files.WellFormed)
    (hprimes : ∀ pair ∈ w.primes.head?, pair.IsFresh)
    (hapart : b.PathsApart (b.locator.prepare w.files)) (h : b.bootstrap w = (.ok a, w₁))
    (hplaces : b.SamePlaces b')
    (hbinding : b'.verifyKeyBinding = true → b.verifyKeyBinding = true ∨ a.origin = .generated) :
    b.locator.Settled w₁.files ∧ b'.found w₁.files = .ok { a with origin := .recovered } := by
  have hs : b.locator.Settled (b.locator.prepare w.files) := Locator.settled_prepare hw
  obtain ⟨events, hrun⟩ := bootstrap_eq hs
  rw [h] at hrun
  cases hfound : b.found (b.locator.prepare w.files) with
  | ok a' =>
    rw [hfound] at hrun
    obtain ⟨ha, rfl⟩ := Prod.mk.inj hrun
    obtain rfl := Except.ok.inj ha
    obtain ⟨-, -, hmatches, horigin⟩ := found_eq_ok_iff.mp hfound
    have hbound (hv : b'.verifyKeyBinding = true) : a.keyMatches = true := by
      rcases hbinding hv with hb | hgenerated
      · exact hmatches hb
      · rw [horigin] at hgenerated
        cases hgenerated
    refine ⟨hs, ?_⟩
    rw [← horigin]
    exact hplaces.found hfound hbound
  | error e =>
    rw [hfound] at hrun
    obtain ⟨certificate, key, w', hp, hmint, hfiles⟩ := places_of_mintAndStore hs hapart hrun.symm
    obtain ⟨pair, t, signed, signature, hhead, hminted⟩ := World.minted_of_mint hmint
    have hmatches := hminted.keyMatches
    have hheld := found_of_holds (hp.holds a) hminted.readBack
      (hminted.ofContainer_container (hprimes pair hhead)) hmatches
    rw [hfiles]
    exact ⟨hp.settled_stored hs a, hplaces.found hheld fun _ => hmatches⟩

/-- **What a run returned is returned by every later run in the same places**, with the same
    certificate and the same key. The later run may have another identity, and any clock, serial
    source and primes, and it changes nothing but the log: no file, no serial number, no primes. -/
theorem bootstrap_again (hw : w.files.WellFormed)
    (hprimes : ∀ pair ∈ w.primes.head?, pair.IsFresh)
    (hapart : b.PathsApart (b.locator.prepare w.files)) (h : b.bootstrap w = (.ok a, w₁))
    (hplaces : b.SamePlaces b')
    (hbinding : b'.verifyKeyBinding = true → b.verifyKeyBinding = true ∨ a.origin = .generated)
    (hfiles : w₂.files = w₁.files) :
    ∃ events, b'.bootstrap w₂ = (.ok { a with origin := .recovered }, w₂.report events) := by
  obtain ⟨hs, hfound⟩ := found_of_bootstrap hw hprimes hapart h hplaces hbinding
  rw [← hfiles] at hs hfound
  rw [← hplaces.locator] at hs
  exact bootstrap_of_found hs hfound

/-- A first run that generates, and a second one for another identity. -/
theorem bootstrap_again_inStore : ∃ a w₁, inStore.bootstrap World.untouched = (.ok a, w₁) ∧
    a.origin = .generated ∧
    ∃ events, Bootstrapper.bootstrap { inStore with identity := ⟨"Another CA", "", []⟩ } w₁
      = (.ok { a with origin := .recovered }, w₁.report events) := by
  obtain ⟨a, w₁, h, horigin⟩ := bootstrap_inStore
  exact ⟨a, w₁, h, horigin, bootstrap_again wellFormed_untouched World.isFresh_untouched
    places_inStore.pathsApart h ⟨rfl, rfl, rfl⟩ (fun _ => .inl rfl) rfl⟩

end Bootstrapper

end RootAuthority
