import RootAuthority.Proofs.Bootstrap.Store

/-!
# How a run ends

A run recovers an authority, or it mints one, writes the certificate and then the key; each of these
three can fail. `Bootstrapper.Ends` has a rule for every such end, with the worlds in between, and
`Bootstrapper.bootstrap_ends` says that there is no other. Loading changes neither clock nor serial
source nor primes (`Bootstrapper.load_world`); what minting uses up is said by `World.uses_mint`.
-/

namespace RootAuthority

/-! ## 1. Minting -/

/-- The failure is about a file that could not be written. -/
def MintFailure.IsPersist : MintFailure → Prop
  | .refused (.persist _ _) => True
  | _ => False

theorem MintFailure.not_isPersist_ofShift (e : Instant.ShiftError) :
    ¬(MintFailure.ofShift e).IsPersist := by
  cases e with
  | yearOutOfRange => exact id
  | noNextDay => exact id

/-- Without a template there is a reason other than a file. -/
theorem Template.not_isPersist_of_mintedAt {identity : Identity} {serial : Nat}
    {key : Rsa.PublicKey} {now : Instant} {failure : MintFailure}
    (h : mintedAt identity serial key now = .error failure) : ¬failure.IsPersist := by
  have hshift (k : Int) (failure : MintFailure)
      (hk : (now.shiftYears k).mapError MintFailure.ofShift = .error failure) :
      ¬failure.IsPersist := by
    cases hs : now.shiftYears k with
    | ok t =>
      rw [hs] at hk
      cases hk
    | error e =>
      rw [hs] at hk
      cases hk
      exact MintFailure.not_isPersist_ofShift e
  unfold mintedAt at h
  dsimp only at h
  split at h
  · cases h
    exact id
  · split at h
    · cases h
      exact id
    · rcases bind_eq_error_iff.mp h with h | ⟨_, _, h⟩
      · exact hshift (-1) failure h
      · rcases bind_eq_error_iff.mp h with h | ⟨_, _, h⟩
        · exact hshift 1 failure h
        · cases h

/-- What fails while an authority is minted is not a file. -/
theorem Authority.not_isPersist_of_mint {identity : Identity} {serial : Nat} {key : Rsa.PrivateKey}
    {now : Instant} {failure : MintFailure}
    (h : mint identity serial key now = .error failure) : ¬failure.IsPersist := by
  unfold mint at h
  rcases bind_eq_error_iff.mp h with h | ⟨t, _, h⟩
  · exact Template.not_isPersist_of_mintedAt h
  · split at h
    · split at h
      · split at h
        · split at h
          · cases h
          · cases h
            exact id
        · cases h
          exact id
      · cases h
        exact id
    · cases h
      exact id

namespace World

variable {w w' : World} {identity : Identity} {failure : MintFailure}

theorem not_isPersist_of_mint (h : w.mint identity = (.error failure, w')) :
    ¬failure.IsPersist := by
  unfold mint at h
  split at h
  · cases h
    exact id
  · dsimp only at h
    split at h
    · cases h
      exact id
    · split at h
      · next hmint =>
        cases h
        exact Authority.not_isPersist_of_mint hmint
      · cases h

/-- Clock, serial source and primes are the same in both worlds. -/
structure SameSupplies (w w' : World) : Prop where
  clock : w'.clock = w.clock
  serials : w'.serials = w.serials
  primes : w'.primes = w.primes

/-- **What minting uses up**, whether or not it succeeds: a serial number and two primes, as long as
    there is a serial number. -/
theorem uses_mint (w : World) (identity : Identity) :
    if w.serials.current < maxSerial then
      (w.mint identity).2.serials = ⟨w.serials.current + 1⟩ ∧
        (w.mint identity).2.primes = w.primes.tail
    else (w.mint identity).2.serials = w.serials ∧ (w.mint identity).2.primes = w.primes := by
  unfold mint SerialSource.next
  split
  · next hlt =>
    dsimp only
    split
    · next hprimes => exact ⟨rfl, by rw [hprimes]; rfl⟩
    · next hprimes =>
      split
      · exact ⟨rfl, by rw [hprimes]; rfl⟩
      · exact ⟨rfl, by rw [hprimes]; rfl⟩
  · exact ⟨rfl, rfl⟩

end World

namespace Bootstrapper

variable {b : Bootstrapper} {w w' : World}

/-! ## 2. Loading -/

/-- **Loading prepares the storage directory**, once for each file that is looked at, and uses up
    nothing. -/
theorem load_world (b : Bootstrapper) (w : World) :
    (∃ n, (b.load w).2.files = b.locator.prepare^[n] w.files) ∧ w.SameSupplies (b.load w).2 := by
  obtain ⟨events, hcertificate⟩ := b.readCertificate_eq w
  rw [load, hcertificate]
  cases (b.locator.prepare w.files).readCertificate b.certificateAt with
  | error e => exact ⟨⟨1, rfl⟩, rfl, rfl, rfl⟩
  | ok certificate =>
    obtain ⟨events', hkey⟩ := b.readKey_eq b.certificateAt certificate
      ({ w with files := b.locator.prepare w.files }.report events)
    simp only [Except.map, hkey]
    exact ⟨⟨2, rfl⟩, rfl, rfl, rfl⟩

/-! ## 3. Ends -/

/-- **How a run can end.** The worlds in between are the one after loading and the one after
    minting. -/
inductive Ends (b : Bootstrapper) (w w' : World) : Except MintFailure Authority → Prop
  | recovered {a : Authority} (hload : b.load w = (.ok a, w')) : Ends b w w' (.ok a)
  | notMinted {e : LoadError} {failure : MintFailure} {loaded : World}
      (hload : b.load w = (.error e, loaded))
      (hmint : loaded.mint b.identity = (.error failure, w')) : Ends b w w' (.error failure)
  | certificateNotWritten {e : LoadError} {a : Authority} {cause : FileError}
      {loaded minted : World} (hload : b.load w = (.error e, loaded))
      (hmint : loaded.mint b.identity = (.ok a, minted))
      (hcertificate : (b.locator.prepare minted.files).writeRestricted b.certificateAt
        a.certificate.der = .error cause)
      (hfiles : w'.files = b.locator.prepare minted.files) (hsame : minted.SameSupplies w') :
      Ends b w w' (.error (.refused (.persist b.certificateAt cause)))
  | keyNotWritten {e : LoadError} {a : Authority} {cause : FileError} {loaded minted : World}
      {files : FileSystem} (hload : b.load w = (.error e, loaded))
      (hmint : loaded.mint b.identity = (.ok a, minted))
      (hcertificate : (b.locator.prepare minted.files).writeRestricted b.certificateAt
        a.certificate.der = .ok files)
      (hkey : (b.locator.prepare files).writeRestricted b.keyAt a.privateKey.container
        = .error cause)
      (hfiles : w'.files = b.locator.prepare files) (hsame : minted.SameSupplies w') :
      Ends b w w' (.error (.refused (.persist b.keyAt cause)))
  | generated {e : LoadError} {a : Authority} {loaded minted : World} {files : FileSystem}
      (hload : b.load w = (.error e, loaded))
      (hmint : loaded.mint b.identity = (.ok a, minted))
      (hcertificate : (b.locator.prepare minted.files).writeRestricted b.certificateAt
        a.certificate.der = .ok files)
      (hkey : (b.locator.prepare files).writeRestricted b.keyAt a.privateKey.container
        = .ok w'.files)
      (hsame : minted.SameSupplies w') : Ends b w w' (.ok a)

/-- What is done with an authority that was minted. -/
theorem mintAndStore_ends {e : LoadError} {loaded : World}
    (hload : b.load w = (.error e, loaded)) :
    Ends b w (b.mintAndStore loaded).2 (b.mintAndStore loaded).1 := by
  unfold mintAndStore
  rcases hmint : loaded.mint b.identity with ⟨failure | a, minted⟩
  · exact .notMinted hload hmint
  · obtain ⟨events, hwrite⟩ := b.writeCertificate_prepared a minted
    dsimp only
    rw [hwrite]
    cases hcertificate : (b.locator.prepare minted.files).writeRestricted b.certificateAt
        a.certificate.der with
    | error cause =>
      exact .certificateNotWritten hload hmint hcertificate rfl ⟨rfl, rfl, rfl⟩
    | ok files =>
      obtain ⟨events', hwrite'⟩ := b.writeKey_prepared b.certificateAt a
        ({ minted with files := files }.report events)
      dsimp only
      rw [hwrite', World.files_report]
      cases hkey : (b.locator.prepare files).writeRestricted b.keyAt a.privateKey.container with
      | error cause =>
        exact .keyNotWritten hload hmint hcertificate hkey rfl ⟨rfl, rfl, rfl⟩
      | ok files' => exact .generated hload hmint hcertificate hkey ⟨rfl, rfl, rfl⟩

/-- **Every run ends like that.** -/
theorem bootstrap_ends {result : Except MintFailure Authority} (h : b.bootstrap w = (result, w')) :
    Ends b w w' result := by
  unfold bootstrap at h
  rcases hload : b.load w with ⟨e | a, loaded⟩
  · rw [hload] at h
    have hends := mintAndStore_ends hload
    rw [show b.mintAndStore loaded = (result, w') from h] at hends
    exact hends
  · rw [hload] at h
    obtain ⟨rfl, rfl⟩ := Prod.mk.inj h
    exact .recovered hload

/-- **What a run uses up**: nothing, if it recovers an authority, and else what minting uses up. -/
theorem Ends.supplies {result : Except MintFailure Authority} (h : Ends b w w' result) :
    (∃ a, b.load w = (.ok a, w') ∧ result = .ok a) ∨
    ∃ e loaded, b.load w = (.error e, loaded) ∧ (loaded.mint b.identity).2.SameSupplies w' ∧
      ∀ a, result = .ok a → (loaded.mint b.identity).1 = .ok a := by
  cases h with
  | @recovered a hload => exact .inl ⟨a, hload, rfl⟩
  | @notMinted e failure loaded hload hmint =>
    refine .inr ⟨e, loaded, hload, ?_, fun _ => nofun⟩
    rw [hmint]
    exact ⟨rfl, rfl, rfl⟩
  | @certificateNotWritten e a cause loaded minted hload hmint hcertificate hfiles hsame =>
    refine .inr ⟨e, loaded, hload, ?_, fun _ => nofun⟩
    rw [hmint]
    exact hsame
  | @keyNotWritten e a cause loaded minted files hload hmint hcertificate hkey hfiles hsame =>
    refine .inr ⟨e, loaded, hload, ?_, fun _ => nofun⟩
    rw [hmint]
    exact hsame
  | @generated e a loaded minted files hload hmint hcertificate hkey hsame =>
    refine .inr ⟨e, loaded, hload, ?_, ?_⟩
    · rw [hmint]
      exact hsame
    · rintro _ ⟨⟩
      rw [hmint]

end Bootstrapper

end RootAuthority
