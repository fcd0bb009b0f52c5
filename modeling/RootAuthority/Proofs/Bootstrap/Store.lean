import RootAuthority.Proofs.Bootstrap.Load
import RootAuthority.Proofs.Storage.Contents

/-!
# What a bootstrapper leaves on disk

An authority is stored at the two places to which the paths of certificate and key lead
(`Bootstrapper.Places`). Both files then hold it and nothing else (`Bootstrapper.Holds`):

* `Bootstrapper.mintAndStore_of_places`: a minted authority is stored, if there are places;
* `Bootstrapper.places_of_mintAndStore`: an authority that was returned was stored;
* `Bootstrapper.Places.holds`: what was stored is held;
* `Bootstrapper.bootstrap_eq`: a run loads first, and mints and stores if nothing was found.
-/

namespace RootAuthority.Bootstrapper

variable {b : Bootstrapper} {fs : FileSystem} {w w' : World} {a : Authority}

open FileSystem

/-! ## 1. Places -/

/-- **Certificate and key have places of their own**, where nothing or a file is. -/
structure Places (b : Bootstrapper) (fs : FileSystem) (certificate key : Target) : Prop where
  locateCertificate : fs.locate true b.certificateAt = .ok certificate
  locateKey : fs.locate true b.keyAt = .ok key
  certificateWritable : certificate.Writable
  keyWritable : key.Writable
  apart : certificate.location ≠ key.location

/-- The paths of certificate and key do not lead to the same place. -/
def PathsApart (b : Bootstrapper) (fs : FileSystem) : Prop :=
  ∀ certificate key, fs.locate true b.certificateAt = .ok certificate →
    fs.locate true b.keyAt = .ok key → certificate.location ≠ key.location

/-- **Both files hold the authority**, octet by octet and with the restricted mode. -/
structure Holds (b : Bootstrapper) (fs : FileSystem) (a : Authority) : Prop where
  certificate : ∃ loc, fs.locate true b.certificateAt
    = .ok ⟨loc, some (.file artifactMode a.certificate.der), false⟩
  key : ∃ loc, fs.locate true b.keyAt
    = .ok ⟨loc, some (.file artifactMode a.privateKey.container), false⟩

/-- The file system after the certificate was stored. -/
def certificateStored (fs : FileSystem) (certificate : Target) (a : Authority) : FileSystem :=
  fs.put certificate.location (.file artifactMode a.certificate.der)

/-- The file system after both were stored. -/
def stored (fs : FileSystem) (certificate key : Target) (a : Authority) : FileSystem :=
  (certificateStored fs certificate a).put key.location (.file artifactMode a.privateKey.container)

namespace Places

variable {certificate key : Target}

/-- The place of the key is the same after the certificate was stored. -/
theorem locateKey_certificateStored (h : b.Places fs certificate key) (a : Authority) :
    (certificateStored fs certificate a).locate true b.keyAt = .ok key := by
  have hput := h.certificateWritable.mayPut h.locateCertificate artifactMode a.certificate.der
  rw [certificateStored, locate_put hput h.locateKey, hput.find?_put, if_neg h.apart.symm,
    ← locate_entry h.locateKey]

theorem pathsApart (h : b.Places fs certificate key) : b.PathsApart fs :=
  apart_of_locate h.locateCertificate h.locateKey h.apart

/-- The certificate can be written. -/
theorem writeCertificate (h : b.Places fs certificate key) (a : Authority) :
    fs.writeRestricted b.certificateAt a.certificate.der = .ok (certificateStored fs certificate a) :=
  writeRestricted_eq h.locateCertificate h.certificateWritable _

/-- And then the key. -/
theorem writeKey (h : b.Places fs certificate key) (a : Authority) :
    (certificateStored fs certificate a).writeRestricted b.keyAt a.privateKey.container
      = .ok (stored fs certificate key a) :=
  writeRestricted_eq (h.locateKey_certificateStored a) h.keyWritable _

/-- **What was stored is held.** -/
theorem holds (h : b.Places fs certificate key) (a : Authority) :
    b.Holds (stored fs certificate key a) a := by
  have hapart : fs.Apart b.certificateAt b.keyAt := h.pathsApart
  have hwritten := contains_of_write (h.writeCertificate a)
  exact
    { certificate := hwritten.write (hapart.write (h.writeCertificate a)).symm (h.writeKey a)
      key := contains_of_write (h.writeKey a) }

/-- Storing leaves nothing to prepare. -/
theorem settled_certificateStored (h : b.Places fs certificate key) (hs : b.locator.Settled fs)
    (a : Authority) : b.locator.Settled (certificateStored fs certificate a) :=
  hs.write (h.writeCertificate a)

theorem settled_stored (h : b.Places fs certificate key) (hs : b.locator.Settled fs)
    (a : Authority) : b.locator.Settled (stored fs certificate key a) :=
  (h.settled_certificateStored hs a).write (h.writeKey a)

end Places

/-! ## 2. Storing -/

/-- What the third step does. -/
theorem writeCertificate_prepared (b : Bootstrapper) (a : Authority) (w : World) :
    ∃ events, b.writeCertificate a w
      = match (b.locator.prepare w.files).writeRestricted b.certificateAt a.certificate.der with
        | .ok files => (.ok b.certificateAt, { w with files := files }.report events)
        | .error e => (.error (.refused (.persist b.certificateAt e)),
          { w with files := b.locator.prepare w.files }.report events) := by
  obtain ⟨events, hpath⟩ := b.certificatePath_eq w
  refine ⟨events, ?_⟩
  simp only [writeCertificate, hpath, World.files_report]
  rfl

/-- What the fourth step does. -/
theorem writeKey_prepared (b : Bootstrapper) (path : Path) (a : Authority) (w : World) :
    ∃ events, b.writeKey path a w
      = match (b.locator.prepare w.files).writeRestricted b.keyAt a.privateKey.container with
        | .ok files => (.ok a, { w with files := files }.report events)
        | .error e => (.error (.refused (.persist b.keyAt e)),
          { w with files := b.locator.prepare w.files }.report events) := by
  obtain ⟨events, hpath⟩ := b.keyPath_eq w
  simp only [writeKey, hpath, World.files_report]
  cases (b.locator.prepare w.files).writeRestricted b.keyAt a.privateKey.container with
  | ok files => exact ⟨_, congrArg (Prod.mk _) (World.report_report { w with files := files } _ _)⟩
  | error e => exact ⟨_, rfl⟩

/-- The third step where nothing is left to prepare. -/
theorem writeCertificate_eq (hs : b.locator.Settled w.files) (a : Authority) :
    ∃ events, b.writeCertificate a w
      = match w.files.writeRestricted b.certificateAt a.certificate.der with
        | .ok files => (.ok b.certificateAt, { w with files := files }.report events)
        | .error e => (.error (.refused (.persist b.certificateAt e)), w.report events) := by
  obtain ⟨events, hwrite⟩ := b.writeCertificate_prepared a w
  rw [Locator.prepare_of_settled hs] at hwrite
  exact ⟨events, hwrite⟩

/-- And the fourth. -/
theorem writeKey_eq (hs : b.locator.Settled w.files) (path : Path) (a : Authority) :
    ∃ events, b.writeKey path a w
      = match w.files.writeRestricted b.keyAt a.privateKey.container with
        | .ok files => (.ok a, { w with files := files }.report events)
        | .error e => (.error (.refused (.persist b.keyAt e)), w.report events) := by
  obtain ⟨events, hwrite⟩ := b.writeKey_prepared path a w
  rw [Locator.prepare_of_settled hs] at hwrite
  exact ⟨events, hwrite⟩

/-- **A minted authority is stored**, if there are places for it. -/
theorem mintAndStore_of_places {certificate key : Target} {w₁ : World}
    (hs : b.locator.Settled w.files) (hplaces : b.Places w.files certificate key)
    (hmint : w.mint b.identity = (.ok a, w₁)) :
    ∃ w', b.mintAndStore w = (.ok a, w') ∧ w'.files = stored w.files certificate key a := by
  have hfiles := World.files_of_mint hmint
  obtain ⟨events, hc⟩ := writeCertificate_eq (w := w₁) (hfiles ▸ hs) a
  rw [hfiles, hplaces.writeCertificate a] at hc
  obtain ⟨events', hk⟩ := writeKey_eq (b := b)
    (w := { w₁ with files := certificateStored w.files certificate a }.report events)
    (hplaces.settled_certificateStored hs a) b.certificateAt a
  rw [World.files_report, hplaces.writeKey a] at hk
  simp only [mintAndStore, hmint, hc, hk]
  exact ⟨_, rfl, rfl⟩

/-- A place that was writable after the certificate was stored elsewhere was so before. -/
theorem places_of_locate {certificate key : Target} (hapart : b.PathsApart fs)
    (hc : fs.locate true b.certificateAt = .ok certificate) (hcw : certificate.Writable)
    (hk : (certificateStored fs certificate a).locate true b.keyAt = .ok key)
    (hkw : key.Writable) : b.Places fs certificate key := by
  have hput := hcw.mayPut hc artifactMode a.certificate.der
  obtain ⟨key', hk', rfl⟩ := locate_of_put hput hk
  have hne := hapart certificate key' hc hk'
  have hsame : (⟨key'.location, (fs.put certificate.location (.file artifactMode
      a.certificate.der)).find? key'.location, key'.slash⟩ : Target) = key' := by
    rw [hput.find?_put, if_neg hne.symm, ← locate_entry hk']
  rw [hsame] at hkw ⊢
  exact ⟨hc, hk', hcw, hkw, hne⟩

/-- **An authority that was returned was stored.** -/
theorem places_of_mintAndStore (hs : b.locator.Settled w.files) (hapart : b.PathsApart w.files)
    (h : b.mintAndStore w = (.ok a, w')) :
    ∃ certificate key w₁, b.Places w.files certificate key ∧ w.mint b.identity = (.ok a, w₁) ∧
      w'.files = stored w.files certificate key a := by
  obtain ⟨a', w₁, hmint⟩ : ∃ a' w₁, w.mint b.identity = (.ok a', w₁) := by
    unfold mintAndStore at h
    split at h
    · cases h
    · next hmint => exact ⟨_, _, hmint⟩
  have hfiles := World.files_of_mint hmint
  obtain ⟨events, hc⟩ := writeCertificate_eq (w := w₁) (hfiles ▸ hs) a'
  rw [hfiles] at hc
  simp only [mintAndStore, hmint, hc] at h
  cases hwrite : w.files.writeRestricted b.certificateAt a'.certificate.der with
  | error e =>
    rw [hwrite] at h
    cases h
  | ok files =>
    obtain ⟨certificate, hlocate, hwritable, rfl⟩ := writeRestricted_ok hwrite
    have hset : b.locator.Settled (certificateStored w.files certificate a') :=
      hs.put (hwritable.mayPut hlocate _ _)
    obtain ⟨events', hk⟩ := writeKey_eq (b := b)
      (w := { w₁ with files := certificateStored w.files certificate a' }.report events)
      hset b.certificateAt a'
    rw [World.files_report] at hk
    rw [hwrite] at h
    have hboth := hk.symm.trans h
    cases hwrite' : (certificateStored w.files certificate a').writeRestricted b.keyAt
        a'.privateKey.container with
    | error e =>
      rw [hwrite'] at hboth
      cases hboth
    | ok files' =>
      obtain ⟨key, hlocate', hwritable', rfl⟩ := writeRestricted_ok hwrite'
      rw [hwrite'] at hboth
      obtain ⟨ha, rfl⟩ := Prod.mk.inj hboth
      obtain rfl := Except.ok.inj ha
      exact ⟨certificate, key, w₁, places_of_locate hapart hlocate hwritable hlocate' hwritable',
        hmint, rfl⟩

/-! ## 3. A whole run -/

/-- **A run** loads, and mints and stores if nothing was found. -/
theorem bootstrap_eq (h : b.locator.Settled (b.locator.prepare w.files)) :
    ∃ events, b.bootstrap w = match b.found (b.locator.prepare w.files) with
      | .ok a => (.ok a, { w with files := b.locator.prepare w.files }.report events)
      | .error _ =>
        b.mintAndStore ({ w with files := b.locator.prepare w.files }.report events) := by
  obtain ⟨events, hload⟩ := load_eq h
  refine ⟨events, ?_⟩
  rw [bootstrap, hload]
  cases b.found (b.locator.prepare w.files) with
  | ok a => rfl
  | error e => rfl

/-- A run succeeds where there are places for an authority and all that minting needs. -/
theorem bootstrap_of_places {certificate key : Target}
    (hs : b.locator.Settled (b.locator.prepare w.files))
    (hplaces : b.Places (b.locator.prepare w.files) certificate key)
    (hmint : w.CanMint b.identity) :
    ∃ a w', b.bootstrap w = (.ok a, w') ∧ (b.found (b.locator.prepare w.files) = .ok a ∨
      a.origin = .generated ∧ w'.files = stored (b.locator.prepare w.files) certificate key a) := by
  obtain ⟨events, hrun⟩ := bootstrap_eq hs
  cases hfound : b.found (b.locator.prepare w.files) with
  | ok a =>
    rw [hfound] at hrun
    exact ⟨a, _, hrun, .inl rfl⟩
  | error e =>
    obtain ⟨a, w₁, ha⟩ := World.mint_succeeds (hmint.report (b.locator.prepare w.files) events)
    obtain ⟨w', hstore, hfiles⟩ := mintAndStore_of_places hs hplaces ha
    obtain ⟨_, _, _, _, _, hminted⟩ := World.minted_of_mint ha
    rw [hfound] at hrun
    exact ⟨a, w', hrun.trans hstore, .inr ⟨hminted.origin, hfiles⟩⟩

/-! ## 4. A first run -/

/-- A file system without entries is well-formed. -/
theorem wellFormed_untouched : World.untouched.files.WellFormed where
  start := hasDirectory_root _
  parents loc := by
    rintro ⟨m, hm⟩
    cases loc with
    | nil => exact hasDirectory_root _
    | cons name rest => cases hm

/-- A bootstrapper for a storage directory that may be missing. -/
def inStore : Bootstrapper := .new (.inDirectory "/store") .default

theorem places_inStore : inStore.Places (inStore.locator.prepare World.untouched.files)
    ⟨["store", "ca.der"], none, false⟩ ⟨["store", "caKey.der"], none, false⟩ where
  locateCertificate := rfl
  locateKey := rfl
  certificateWritable := ⟨rfl, .inl rfl⟩
  keyWritable := ⟨rfl, .inl rfl⟩
  apart := by decide

theorem settled_inStore :
    inStore.locator.Settled (inStore.locator.prepare World.untouched.files) :=
  Locator.settled_prepare wellFormed_untouched

/-- The first run of a bootstrapper generates an authority. -/
theorem bootstrap_inStore : ∃ a w', inStore.bootstrap World.untouched = (.ok a, w') ∧
    a.origin = .generated := by
  obtain ⟨a, w', h, hcases⟩ :=
    bootstrap_of_places settled_inStore places_inStore World.canMint_untouched
  have hmissing : inStore.found (inStore.locator.prepare World.untouched.files)
      = .error (.notFound "/store/ca.der") := rfl
  rcases hcases with hfound | ⟨horigin, -⟩
  · rw [hmissing] at hfound
    cases hfound
  · exact ⟨a, w', h, horigin⟩

/-- The world in which the storage directory holds a file for the certificate and one for the
    key. -/
def twoFiles (certificate key : Octets) : World :=
  { World.untouched with
    files := ⟨[(["store"], .directory 0o700), (["store", "ca.der"], .file 0o600 certificate),
      (["store", "caKey.der"], .file 0o600 key)], []⟩ }

theorem wellFormed_twoFiles (certificate key : Octets) :
    (twoFiles certificate key).files.WellFormed := by
  have hprepared : (inStore.locator.prepare World.untouched.files).WellFormed :=
    Locator.wellFormed_prepare wellFormed_untouched
  have hcertificate : ((inStore.locator.prepare World.untouched.files).put ["store", "ca.der"]
      (.file 0o600 certificate)).WellFormed := hprepared.put (.inl rfl) nofun
  have hboth : (((inStore.locator.prepare World.untouched.files).put ["store", "ca.der"]
      (.file 0o600 certificate)).put ["store", "caKey.der"] (.file 0o600 key)).WellFormed :=
    hcertificate.put (.inl rfl) nofun
  exact hboth

theorem places_twoFiles (certificate key : Octets) :
    inStore.Places (inStore.locator.prepare (twoFiles certificate key).files)
      ⟨["store", "ca.der"], some (.file 0o600 certificate), false⟩
      ⟨["store", "caKey.der"], some (.file 0o600 key), false⟩ where
  locateCertificate := rfl
  locateKey := rfl
  certificateWritable := ⟨rfl, .inr ⟨_, _, rfl⟩⟩
  keyWritable := ⟨rfl, .inr ⟨_, _, rfl⟩⟩
  apart := places_inStore.apart

end RootAuthority.Bootstrapper
