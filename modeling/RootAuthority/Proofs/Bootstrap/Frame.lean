import RootAuthority.Proofs.Bootstrap.Outcome
import RootAuthority.Proofs.Storage.Frame

/-!
# What a run leaves alone

A run changes a file system in two ways: it creates missing directories on the way to the storage
directory, and it writes the two files. So every other entry is as it was before, however the run
ends, and a run that fails before it wrote anything leaves every file and link as it was
(`Bootstrapper.bootstrap_frame`). This takes no assumption about the file system: directories may
stand where the files belong, and either path may lead through links.
-/

namespace RootAuthority.Bootstrapper

open FileSystem

variable {b : Bootstrapper} {w w' loaded minted : World} {a : Authority} {e : LoadError}
  {before files : FileSystem}

/-- **The authority that a run mints**: with the next serial number and the next two primes, at the
    time of the clock. -/
def Mints (b : Bootstrapper) (w : World) (a : Authority) : Prop :=
  ∃ pair, w.primes.head? = some pair ∧
    Authority.mint b.identity (w.serials.current + 1) (.ofPrimes pair) w.clock = .ok a

/-- What is minted after loading could have been minted before. -/
theorem mints_of_load (hload : b.load w = (.error e, loaded))
    (hmint : loaded.mint b.identity = (.ok a, minted)) : b.Mints w a := by
  obtain ⟨-, hsame⟩ := b.load_world w
  rw [hload] at hsame
  obtain ⟨serial, serials, pair, primes, hnext, hprimes, ha⟩ := World.mint_ok hmint
  obtain ⟨-, rfl⟩ := SerialSource.next_eq_some hnext
  rw [hsame.serials, hsame.clock] at ha
  rw [hsame.primes] at hprimes
  exact ⟨pair, by rw [hprimes]; rfl, ha⟩

/-- **Loading creates directories at most.** -/
theorem frame_load (b : Bootstrapper) (w : World) :
    Frame b.locator.chain [] w.files (b.load w).2.files := by
  obtain ⟨⟨n, hfiles⟩, -⟩ := b.load_world w
  rw [hfiles]
  clear hfiles
  induction n with
  | zero => exact Frame.refl w.files
  | succ n ih =>
    rw [Function.iterate_succ_apply']
    exact ih.prepare

/-- And minting after it does nothing more. -/
theorem frame_mint {result : Except MintFailure Authority} (hload : b.load w = (.error e, loaded))
    (hmint : loaded.mint b.identity = (result, minted)) :
    Frame b.locator.chain [] w.files minted.files := by
  have hframe := b.frame_load w
  have hfiles := World.files_mint loaded b.identity
  rw [hload] at hframe
  rw [hmint] at hfiles
  rw [hfiles]
  exact hframe

/-- **The certificate could be written again**, so that a key that cannot be written belongs to
    another path. -/
theorem keyAt_ne_certificateAt {cause : FileError}
    (hcertificate : before.writeRestricted b.certificateAt a.certificate.der = .ok files)
    (hkey : (b.locator.prepare files).writeRestricted b.keyAt a.privateKey.container
      = .error cause) : b.keyAt ≠ b.certificateAt := by
  intro heq
  have hwritten := (contains_of_write hcertificate).prepare b.locator
  obtain ⟨files', hagain⟩ := (canWrite_of_contains hwritten).write_ok a.privateKey.container
  rw [heq, hagain] at hkey
  cases hkey

/-- **The certificate alone was written**: its file holds it, and all else is as it was. -/
theorem frame_certificate (hload : b.load w = (.error e, loaded))
    (hmint : loaded.mint b.identity = (.ok a, minted))
    (hcertificate : (b.locator.prepare minted.files).writeRestricted b.certificateAt
      a.certificate.der = .ok files) :
    ∃ loc, (b.locator.prepare files).locate true b.certificateAt
        = .ok ⟨loc, some (.file artifactMode a.certificate.der), false⟩ ∧
      Frame b.locator.chain [loc] w.files (b.locator.prepare files) := by
  obtain ⟨loc, hloc, hframe⟩ := (frame_mint hload hmint).prepare.write hcertificate
  exact ⟨loc, locate_prepare b.locator hloc, hframe.prepare⟩

/-- **Both files were written**, and all else is as it was. -/
theorem frame_both (hload : b.load w = (.error e, loaded))
    (hmint : loaded.mint b.identity = (.ok a, minted))
    (hcertificate : (b.locator.prepare minted.files).writeRestricted b.certificateAt
      a.certificate.der = .ok files)
    (hkey : (b.locator.prepare files).writeRestricted b.keyAt a.privateKey.container
      = .ok w'.files) :
    ∃ places,
      (∀ loc ∈ places, w'.files.LeadsTo b.certificateAt loc ∨ w'.files.LeadsTo b.keyAt loc) ∧
      Frame b.locator.chain places w.files w'.files := by
  obtain ⟨loc, hloc, hwritten⟩ := frame_certificate hload hmint hcertificate
  obtain ⟨loc', hloc', hframe⟩ := hwritten.write hkey
  refine ⟨[loc', loc], fun place hmem => ?_, hframe⟩
  rcases List.mem_pair.mp hmem with rfl | rfl
  · exact .inr ⟨_, hloc', rfl⟩
  · exact .inl (LeadsTo.write ⟨_, hloc, rfl⟩ hkey)

/-- **What a run leaves alone**, whatever the file system holds. A failure that is not about the key
    file leaves every entry as it was, but for directories that were missing on the way to the
    storage directory. Where the key could not be written, the certificate file holds the
    certificate just minted, for its owner alone, and all else is as it was. An authority is
    returned only if it was loaded or both files were written. In every case all entries but the two
    files' stay as they are. -/
theorem bootstrap_frame {result : Except MintFailure Authority} (h : b.bootstrap w = (result, w')) :
    (∀ failure, result = .error failure →
      (∀ path cause, failure = .refused (.persist path cause) → path = b.certificateAt) →
      Frame b.locator.chain [] w.files w'.files) ∧
    (∀ path cause, result = .error (.refused (.persist path cause)) → path ≠ b.certificateAt →
      path = b.keyAt ∧ ∃ a loc, b.Mints w a ∧
        w'.files.locate true b.certificateAt
          = .ok ⟨loc, some (.file 0o600 a.certificate.der), false⟩ ∧
        Frame b.locator.chain [loc] w.files w'.files) ∧
    (∀ a, result = .ok a →
      b.load w = (.ok a, w') ∧ Frame b.locator.chain [] w.files w'.files ∨
      b.Mints w a ∧ ∃ files files' : FileSystem, Frame b.locator.chain [] w.files files ∧
        files.writeRestricted b.certificateAt a.certificate.der = .ok files' ∧
        (b.locator.prepare files').writeRestricted b.keyAt a.privateKey.container = .ok w'.files) ∧
    ∃ places, (∀ loc ∈ places, w'.files.LeadsTo b.certificateAt loc ∨ w'.files.LeadsTo b.keyAt loc) ∧
      Frame b.locator.chain places w.files w'.files := by
  cases bootstrap_ends h with
  | @recovered a hload =>
    have hframe := b.frame_load w
    rw [hload] at hframe
    refine ⟨fun _ => nofun, fun _ _ => nofun, ?_, [], nofun, hframe⟩
    rintro _ ⟨⟩
    exact .inl ⟨hload, hframe⟩
  | @notMinted e failure loaded hload hmint =>
    have hframe := frame_mint hload hmint
    refine ⟨fun _ _ _ => hframe, ?_, fun _ => nofun, [], nofun, hframe⟩
    rintro path cause ⟨⟩
    exact (World.not_isPersist_of_mint hmint trivial).elim
  | @certificateNotWritten e a cause loaded minted hload hmint hcertificate hfiles =>
    have hframe := (frame_mint hload hmint).prepare
    rw [← hfiles] at hframe
    refine ⟨fun _ _ _ => hframe, ?_, fun _ => nofun, [], nofun, hframe⟩
    rintro path cause ⟨⟩ hne
    exact (hne rfl).elim
  | @keyNotWritten e a cause loaded minted files hload hmint hcertificate hkey hfiles =>
    have hne := keyAt_ne_certificateAt hcertificate hkey
    obtain ⟨loc, hloc, hframe⟩ := frame_certificate hload hmint hcertificate
    rw [← hfiles] at hloc hframe
    refine ⟨fun failure hfailure hpath => ?_, ?_, fun _ => nofun, [loc], ?_, hframe⟩
    · cases hfailure
      exact (hne (hpath _ _ rfl)).elim
    · rintro path cause ⟨⟩ -
      exact ⟨rfl, a, loc, mints_of_load hload hmint, hloc, hframe⟩
    · intro place hmem
      rw [List.mem_singleton.mp hmem]
      exact .inl ⟨_, hloc, rfl⟩
  | @generated e a loaded minted files hload hmint hcertificate hkey =>
    refine ⟨fun _ => nofun, fun _ _ => nofun, ?_, frame_both hload hmint hcertificate hkey⟩
    rintro _ ⟨⟩
    exact .inr ⟨mints_of_load hload hmint, _, files, (frame_mint hload hmint).prepare, hcertificate,
      hkey⟩

/-- A run that finds nothing, mints and writes the certificate ends as the writing of the key. -/
theorem bootstrap_of_steps {path : Path} {written : World} {result : Except MintFailure Authority}
    (hload : b.load w = (.error e, loaded)) (hmint : loaded.mint b.identity = (.ok a, minted))
    (hcertificate : b.writeCertificate a minted = (.ok path, written))
    (hkey : b.writeKey path a written = (result, w')) : b.bootstrap w = (result, w') := by
  simp only [bootstrap, hload, mintAndStore, hmint, hcertificate, hkey]

/-- A world in which a directory stands where the key belongs. -/
def squatted : World :=
  { World.untouched with
    files := ⟨[(["store"], .directory 0o700), (["store", "caKey.der"], .directory 0o700)], []⟩ }

/-- The run fails over the key. -/
theorem bootstrap_squatted : ∃ w', inStore.bootstrap squatted
    = (.error (.refused (.persist "/store/caKey.der" .isADirectory)), w') := by
  have hs : inStore.locator.Settled squatted.files := .inl rfl
  obtain ⟨events, hload⟩ := load_of_settled (w := squatted) hs
  have hcan : (squatted.report events).CanMint inStore.identity :=
    World.canMint_untouched.report squatted.files events
  obtain ⟨a, minted, hmint⟩ := World.mint_succeeds hcan
  have hminted := World.files_of_mint hmint
  rw [World.files_report] at hminted
  obtain ⟨events', hcertificate⟩ := writeCertificate_eq (b := inStore) (hminted ▸ hs) a
  have hwrite : squatted.files.writeRestricted "/store/ca.der" a.certificate.der
      = .ok (squatted.files.put ["store", "ca.der"] (.file artifactMode a.certificate.der)) :=
    writeRestricted_eq (t := ⟨["store", "ca.der"], none, false⟩) rfl ⟨rfl, .inl rfl⟩ _
  rw [hminted, show inStore.certificateAt = "/store/ca.der" from rfl, hwrite] at hcertificate
  obtain ⟨events'', hkey⟩ := writeKey_eq (b := inStore) (w := { minted with
    files := squatted.files.put ["store", "ca.der"] (.file artifactMode a.certificate.der)
    }.report events') (hs.write hwrite) "/store/ca.der" a
  have hrefused : (squatted.files.put ["store", "ca.der"] (.file artifactMode
      a.certificate.der)).writeRestricted inStore.keyAt a.privateKey.container
      = .error .isADirectory := rfl
  rw [World.files_report, hrefused] at hkey
  have hmissing : inStore.found squatted.files = .error (.notFound "/store/ca.der") := rfl
  rw [hmissing] at hload
  exact ⟨_, bootstrap_of_steps hload hmint hcertificate hkey⟩

/-- The key cannot be written where a directory stands; the certificate was. -/
theorem bootstrap_frame_squatted : ∃ w',
    inStore.bootstrap squatted
      = (.error (.refused (.persist "/store/caKey.der" .isADirectory)), w') ∧
    ∃ a loc, inStore.Mints squatted a ∧
      w'.files.locate true "/store/ca.der"
        = .ok ⟨loc, some (.file 0o600 a.certificate.der), false⟩ ∧
      Frame inStore.locator.chain [loc] squatted.files w'.files := by
  obtain ⟨w', h⟩ := bootstrap_squatted
  obtain ⟨-, hkey⟩ := (bootstrap_frame h).2.1 _ _ rfl (by decide)
  exact ⟨w', h, hkey⟩

end RootAuthority.Bootstrapper
