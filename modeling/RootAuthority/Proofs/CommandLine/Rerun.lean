import RootAuthority.Proofs.Bootstrap.Binding
import RootAuthority.Proofs.CommandLine.Run
import RootAuthority.Proofs.Storage.Frame

/-!
# A second run with the same arguments

A run that gets an authority leaves everything in place for the next one
(`CommandLine.Obtains.inPlace`), as long as what it writes is not what the next one reads
(`CommandLine.FilesApart`). The next run recovers the authority, prints the same lines on it and
leaves both files as they are (`CommandLine.run_again`).

Nothing in a run asks whether the files are apart. Where the certificate is exported onto its own
file, text takes the place of the certificate and nothing is recovered any more
(`CommandLine.not_recovered_exportedOver`).
-/

namespace RootAuthority

open FileSystem

/-! ## 1. What was found is found again -/

namespace Bootstrapper

variable {b : Bootstrapper} {fs fs' : FileSystem} {w w' : World} {a : Authority}

/-- Both files hold the octets of the authority that is found. -/
theorem reads_of_found (h : b.found fs = .ok a) :
    fs.read b.certificateAt = .ok a.certificate.der ∧
      fs.read b.keyAt = .ok a.privateKey.container := by
  obtain ⟨hc, hk, -, -⟩ := found_eq_ok_iff.mp h
  obtain ⟨contents, hread, hcertificate⟩ := readCertificate_eq_ok_iff.mp hc
  obtain ⟨contents', hread', hkey⟩ := readPrivateKey_eq_ok_iff.mp hk
  rw [Certificate.der_of_ofDer hcertificate, (StoredKey.ofContainer_eq_ok_iff.mp hkey).2]
  exact ⟨hread, hread'⟩

/-- **Files that hold the same octets** hold the same authority. -/
theorem found_of_reads (h : b.found fs = .ok a)
    (hcertificate : fs'.read b.certificateAt = .ok a.certificate.der)
    (hkey : fs'.read b.keyAt = .ok a.privateKey.container) : b.found fs' = .ok a := by
  obtain ⟨hc, hk, hmatches, horigin⟩ := found_eq_ok_iff.mp h
  obtain ⟨contents, hread, hofDer⟩ := readCertificate_eq_ok_iff.mp hc
  obtain ⟨contents', hread', hofContainer⟩ := readPrivateKey_eq_ok_iff.mp hk
  obtain ⟨hread₀, hread₀'⟩ := reads_of_found h
  obtain rfl := Except.ok.inj (hread₀.symm.trans hread)
  obtain rfl := Except.ok.inj (hread₀'.symm.trans hread')
  exact found_eq_ok_iff.mpr ⟨readCertificate_eq_ok_iff.mpr ⟨_, hcertificate, hofDer⟩,
    readPrivateKey_eq_ok_iff.mpr ⟨_, hkey, hofContainer⟩, hmatches, horigin⟩

/-- **What a run that gets an authority does to files**: it prepares the storage directory, and
    writes both files if nothing was found. -/
theorem files_of_bootstrap (hw : w.files.WellFormed)
    (hapart : b.PathsApart (b.locator.prepare w.files)) (h : b.bootstrap w = (.ok a, w')) :
    w'.files = b.locator.prepare w.files ∨
      ∃ files : FileSystem, (b.locator.prepare w.files).writeRestricted b.certificateAt
          a.certificate.der = .ok files ∧
        files.writeRestricted b.keyAt a.privateKey.container = .ok w'.files := by
  have hs : b.locator.Settled (b.locator.prepare w.files) := Locator.settled_prepare hw
  obtain ⟨events, hrun⟩ := bootstrap_eq hs
  rw [h] at hrun
  cases hfound : b.found (b.locator.prepare w.files) with
  | ok a' =>
    rw [hfound] at hrun
    obtain ⟨-, rfl⟩ := Prod.mk.inj hrun
    exact .inl rfl
  | error e =>
    rw [hfound] at hrun
    obtain ⟨certificate, key, -, hp, -, hfiles⟩ := places_of_mintAndStore hs hapart hrun.symm
    rw [hfiles]
    exact .inr ⟨_, hp.writeCertificate a, hp.writeKey a⟩

/-- **A file that both paths spare** is read the same after the run. -/
theorem read_of_bootstrap (hw : w.files.WellFormed)
    (hapart : b.PathsApart (b.locator.prepare w.files)) (h : b.bootstrap w = (.ok a, w'))
    {file : Path} {contents : Octets}
    (hcertificate : (b.locator.prepare w.files).Spares b.certificateAt file)
    (hkey : (b.locator.prepare w.files).Spares b.keyAt file)
    (hread : w.files.read file = .ok contents) : w'.files.read file = .ok contents := by
  have hprepared := read_prepare b.locator hread
  rcases files_of_bootstrap hw hapart h with hfiles | ⟨files, hwrite, hwrite'⟩
  · rw [hfiles]
    exact hprepared
  · exact (hkey.write hwrite).read_write (hcertificate.read_write hprepared hwrite) hwrite'

end Bootstrapper

namespace CommandLine

variable {values : Values} {b : Bootstrapper} {a : Authority} {environment : Environment}
  {fs fs' : FileSystem} {w w' : World} {arguments : List String}

/-! ## 2. What a run leaves for the next one -/

/-- **What a run writes is not what the next one reads**: the two files of the authority are apart,
    neither is the configuration file, and the export goes to none of these three. -/
structure FilesApart (values : Values) (b : Bootstrapper) (fs : FileSystem) : Prop where
  artifacts : b.PathsApart fs
  configured : ∀ file ∈ values.lookup .config,
    fs.Spares b.certificateAt file ∧ fs.Spares b.keyAt file
  exported : ∀ path ∈ values.lookup .exportPem,
    fs.Spares path b.certificateAt ∧ fs.Spares path b.keyAt ∧
      ∀ file ∈ values.lookup .config, fs.Spares path file

/-- **Everything is in place for a run**: the settings lead to the bootstrapper, nothing is left to
    prepare, and the authority is found. -/
structure InPlace (environment : Environment) (values : Values) (b : Bootstrapper) (a : Authority)
    (fs : FileSystem) : Prop where
  configured : ∃ config, configure fs values = .ok config ∧
    b = (Bootstrapper.ofConfig environment config).1
  settled : b.locator.Settled fs
  found : b.found fs = .ok { a with origin := .recovered }
  apart : FilesApart values b fs

/-- Files stay apart, whatever file is put. -/
theorem FilesApart.put (h : FilesApart values b fs) {loc : Location} {m : Nat} {c : Octets}
    (hput : fs.MayPut loc (.file m c)) : FilesApart values b (fs.put loc (.file m c)) where
  artifacts := Apart.put h.artifacts hput
  configured file hfile := (h.configured file hfile).imp (·.put hput) (·.put hput)
  exported path hpath :=
    have ⟨hcertificate, hkey, hconfig⟩ := h.exported path hpath
    ⟨hcertificate.put hput, hkey.put hput, fun file hfile => (hconfig file hfile).put hput⟩

theorem FilesApart.write (h : FilesApart values b fs) {p : Path} {contents : Octets}
    (hwrite : fs.writeRestricted p contents = .ok fs') : FilesApart values b fs' := by
  obtain ⟨t, ht, hw, rfl⟩ := writeRestricted_ok hwrite
  exact h.put (hw.mayPut ht artifactMode contents)

/-- **The same configuration** comes from the same configuration file. -/
theorem configure_of_reads {config : Config} (h : configure fs values = .ok config)
    (hreads : ∀ file ∈ values.lookup .config, ∀ contents, fs.read file = .ok contents →
      fs'.read file = .ok contents) : configure fs' values = .ok config := by
  unfold configure at h ⊢
  cases hfile : values.lookup .config with
  | none =>
    rw [hfile] at h
    exact h
  | some file =>
    rw [hfile] at h
    cases hread : fs.read file with
    | error e =>
      simp only [Config.load, readText, hread] at h
      cases h
    | ok contents =>
      have hload : Config.load fs' file = Config.load fs file := by
        simp only [Config.load, readText, hread, hreads file hfile contents hread]
      simp only [hload]
      exact h

/-- **A run that got an authority leaves everything in place**, if the files are apart. -/
theorem Obtains.inPlace (h : Obtains w arguments values b a w') (hw : w.files.WellFormed)
    (hprimes : ∀ pair ∈ w.primes.head?, pair.IsFresh)
    (hapart : FilesApart values b (b.locator.prepare w.files)) :
    InPlace w.environment values b a w'.files := by
  have hartifacts : b.PathsApart (b.locator.prepare (started w).files) := hapart.artifacts
  obtain ⟨-, config, hconfig, hb⟩ := plan_eq_some_iff.mp h.plan
  obtain ⟨hs, hfound⟩ := Bootstrapper.found_of_bootstrap (w := started w) hw hprimes hartifacts
    h.bootstrap (.refl b) fun hv => .inl hv
  refine ⟨⟨config, configure_of_reads hconfig fun file hfile contents hread => ?_, hb⟩, hs, hfound,
    ?_⟩
  · obtain ⟨hcertificate, hkey⟩ := hapart.configured file hfile
    exact Bootstrapper.read_of_bootstrap (w := started w) hw hartifacts h.bootstrap hcertificate
      hkey hread
  · rcases Bootstrapper.files_of_bootstrap (w := started w) hw hartifacts h.bootstrap with
      hfiles | ⟨files, hwrite, hwrite'⟩
    · rw [hfiles]
      exact hapart
    · exact (hapart.write hwrite).write hwrite'

/-- **An export leaves everything in place.** -/
theorem InPlace.exports {a' : Authority} (h : InPlace environment values b a fs)
    (hexports : Exports a' (values.lookup .exportPem) fs fs') :
    InPlace environment values b a fs' := by
  cases hexports with
  | nothing => exact h
  | @file path t m hpath ht hw =>
    obtain ⟨config, hconfig, hb⟩ := h.configured
    obtain ⟨hcertificate, hkey, hsparesConfig⟩ := h.apart.exported path hpath
    obtain ⟨hreadCertificate, hreadKey⟩ := Bootstrapper.reads_of_found h.found
    have hput := hw.mayPut ht m (Octets.ofText a'.pem)
    -- the one file that changed is none of the three that the next run reads
    exact
      { configured := ⟨config, configure_of_reads hconfig fun file hfile contents hread =>
          (hsparesConfig file hfile).read_put hread ht hw m _, hb⟩
        settled := h.settled.put hput
        found := Bootstrapper.found_of_reads h.found
          (hcertificate.read_put hreadCertificate ht hw m _) (hkey.read_put hreadKey ht hw m _)
        apart := h.apart.put hput }

/-- **A run finds what is in place.** -/
theorem InPlace.obtains (h : InPlace w.environment values b a w.files)
    (harguments : readArguments arguments = .ok (.run values)) (hclock : w.clock.Representable) :
    ∃ events, Obtains w arguments values b { a with origin := .recovered }
      ((started w).report events) := by
  obtain ⟨events, hrun⟩ := Bootstrapper.bootstrap_of_found (w := started w) h.settled h.found
  exact ⟨events, plan_eq_some_iff.mpr ⟨harguments, h.configured⟩, hclock, hrun⟩

/-- A run with everything in place prints the lines on its authority and leaves everything in
    place. -/
theorem Obtains.run_inPlace {a' : Authority} (h : Obtains w arguments values b a' w')
    (hplace : InPlace environment values b a w'.files) (logSetting : Option String) :
    Shows (run w logSetting arguments).1.output (description a') ∧
      InPlace environment values b a (run w logSetting arguments).2.files := by
  obtain ⟨hshows, hexports⟩ := h.shows_and_exports hplace.settled logSetting
  exact ⟨hshows, hplace.exports hexports⟩

/-! ## 3. The second run -/

/-- **The program keeps its authority.** If a run gets an authority, whether or not it can export
    it, a second run with the same arguments in the same environment recovers it, prints the same
    lines on it but for the origin, and leaves both files with its octets. The second run may have
    any clock, serial source and primes. -/
theorem run_again {w₂ : World} (logSetting logSetting₂ : Option String) (hw : w.files.WellFormed)
    (hprimes : ∀ pair ∈ w.primes.head?, pair.IsFresh) (h : Obtains w arguments values b a w')
    (hapart : FilesApart values b (b.locator.prepare w.files))
    (hfiles : w₂.files = (run w logSetting arguments).2.files)
    (henvironment : w₂.environment = w.environment) (hclock : w₂.clock.Representable) :
    Shows (run w logSetting arguments).1.output (description a) ∧
    (∃ events, Obtains w₂ arguments values b { a with origin := .recovered }
      ((started w₂).report events)) ∧
    Shows (run w₂ logSetting₂ arguments).1.output
      (description { a with origin := .recovered }) ∧
    (run w₂ logSetting₂ arguments).2.files.read b.certificateAt = .ok a.certificate.der ∧
    (run w₂ logSetting₂ arguments).2.files.read b.keyAt = .ok a.privateKey.container := by
  obtain ⟨hshows, hplace⟩ := h.run_inPlace (h.inPlace hw hprimes hapart) logSetting
  rw [← hfiles, ← henvironment] at hplace
  obtain ⟨harguments, -⟩ := plan_eq_some_iff.mp h.plan
  obtain ⟨events, hagain⟩ := hplace.obtains harguments hclock
  obtain ⟨hshows₂, hplace₂⟩ := hagain.run_inPlace hplace logSetting₂
  have hreads := Bootstrapper.reads_of_found hplace₂.found
  exact ⟨hshows, ⟨events, hagain⟩, hshows₂, hreads⟩

/-! ## 4. Runs in an untouched world -/

/-- The same surroundings with the files that a run left. -/
def afterwards (w : World) (arguments : List String) : World :=
  { w with files := (run w none arguments).2.files }

theorem files_afterwards (w : World) (arguments : List String) :
    (afterwards w arguments).files = (run w none arguments).2.files := rfl

theorem environment_afterwards (w : World) (arguments : List String) :
    (afterwards w arguments).environment = w.environment := rfl

/-- A first run with the default names gets an authority. -/
theorem obtains_inStore
    (hplan : plan World.untouched arguments = (values, some Bootstrapper.inStore)) :
    ∃ a w', Obtains World.untouched arguments values Bootstrapper.inStore a w' ∧
      a.origin = .generated := by
  have hcan : (started World.untouched).CanMint Bootstrapper.inStore.identity :=
    { World.canMint_untouched with serial := by decide +kernel }
  obtain ⟨a, w', h, hcases⟩ := Bootstrapper.bootstrap_of_places (w := started World.untouched)
    Bootstrapper.settled_inStore Bootstrapper.places_inStore hcan
  have hmissing : Bootstrapper.inStore.found
      (Bootstrapper.inStore.locator.prepare World.untouched.files)
      = .error (.notFound "/store/ca.der") := rfl
  rcases hcases with hfound | ⟨horigin, -⟩
  · cases hmissing.symm.trans hfound
  · exact ⟨a, w', ⟨hplan, by decide +kernel, h⟩, horigin⟩

/-- Arguments that export the certificate beside the storage directory. -/
def exportingBeside : List String := ["--dir", "/store", "--export-pem", "/ca.pem"]

theorem plan_exportingBeside (w : World) : plan w exportingBeside
    = ([(.directory, "/store"), (.exportPem, "/ca.pem")], some Bootstrapper.inStore) := rfl

/-- The first run generates, the second one recovers. -/
theorem run_again_exportingBeside : ∃ values a w' events,
    Obtains World.untouched exportingBeside values Bootstrapper.inStore a w' ∧
    a.origin = .generated ∧
    Obtains (afterwards World.untouched exportingBeside) exportingBeside values
      Bootstrapper.inStore { a with origin := .recovered }
      ((started (afterwards World.untouched exportingBeside)).report events) ∧
    Shows (run (afterwards World.untouched exportingBeside) none exportingBeside).1.output
      (description { a with origin := .recovered }) ∧
    (run (afterwards World.untouched exportingBeside) none exportingBeside).2.files.read
      "/store/ca.der" = .ok a.certificate.der := by
  obtain ⟨a, w', h, horigin⟩ := obtains_inStore (plan_exportingBeside World.untouched)
  have hplaces := Bootstrapper.places_inStore
  have hexported : (Bootstrapper.inStore.locator.prepare World.untouched.files).locate true
      "/ca.pem" = .ok ⟨["ca.pem"], none, false⟩ := rfl
  have hapart : FilesApart [(.directory, "/store"), (.exportPem, "/ca.pem")] Bootstrapper.inStore
      (Bootstrapper.inStore.locator.prepare World.untouched.files) :=
    { artifacts := hplaces.pathsApart
      configured := nofun
      exported := by
        rintro _ ⟨⟩
        exact ⟨(apart_of_locate hexported hplaces.locateCertificate (by decide)).spares,
          (apart_of_locate hexported hplaces.locateKey (by decide)).spares, nofun⟩ }
  obtain ⟨-, ⟨events, hagain⟩, hshows, hcertificate, -⟩ :=
    run_again none none Bootstrapper.wellFormed_untouched World.isFresh_untouched h hapart
      (files_afterwards World.untouched exportingBeside)
      (environment_afterwards World.untouched exportingBeside) h.clock
  exact ⟨_, a, w', events, h, horigin, hagain, hshows, hcertificate⟩

end CommandLine

/-! ## 5. An export onto the certificate -/

/-- The textual form of a certificate is none itself: a hyphen is not the tag of a sequence. -/
theorem Certificate.ofDer_certificateText (der : Octets) :
    ofDer (Octets.ofText (Pem.certificateText der)) = .error .certificate := by
  have hbegin : Octets.ofText Pem.beginLine = 45 :: (Octets.ofText Pem.beginLine).tail := rfl
  rw [Pem.certificateText, List.cons_append, List.map_cons, String.join_cons, Octets.ofText_append,
    Octets.ofText_append, hbegin, List.cons_append, List.cons_append, ofDer_eq, Certificate.read,
    readTagged_other (by decide) (by decide)]
  rfl

namespace CommandLine

variable {values : Values} {b : Bootstrapper} {a a₂ : Authority} {fs fs' : FileSystem}
  {w w' w₂ w₃ : World} {arguments : List String}

/-- **Text takes the place of the certificate** when that is exported onto its own file, under
    whatever name, and nothing is found any more. -/
theorem Exports.not_found {path : Path} {t : Target}
    (hexports : Exports a (values.lookup .exportPem) fs fs')
    (hpath : path ∈ values.lookup .exportPem) (hw : t.Writable)
    (ht : fs.locate true path = .ok t) (hcertificate : fs.locate true b.certificateAt = .ok t) :
    b.found fs' ≠ .ok a₂ := by
  intro hfound
  cases hexports with
  | nothing hno => exact hno path hpath ⟨t, ht, hw⟩
  | @file path' t' m hpath' ht' hw' =>
    obtain rfl := Option.some.inj (hpath.symm.trans hpath')
    obtain rfl := Except.ok.inj (ht.symm.trans ht')
    obtain ⟨hc, -, -, -⟩ := Bootstrapper.found_eq_ok_iff.mp hfound
    obtain ⟨contents, hread, hofDer⟩ := readCertificate_eq_ok_iff.mp hc
    rw [read_put hcertificate hw] at hread
    rw [← Except.ok.inj hread, Authority.pem, Certificate.ofDer_certificateText] at hofDer
    cases hofDer

theorem Exports.settled {exportPath : Option Path} (hexports : Exports a exportPath fs fs')
    (hs : b.locator.Settled fs) : b.locator.Settled fs' := by
  cases hexports with
  | nothing => exact hs
  | file m _ ht hw => exact hs.put (hw.mayPut ht m _)

/-- **A run that exports the certificate onto its own file loses it**: a later run with the same
    bootstrapper generates another authority. -/
theorem generated_of_exportedOver {path : Path} {logSetting : Option String}
    (hw : w.files.WellFormed) (hprimes : ∀ pair ∈ w.primes.head?, pair.IsFresh)
    (hapart : b.PathsApart (b.locator.prepare w.files)) (h : Obtains w arguments values b a w')
    (hpath : path ∈ values.lookup .exportPem)
    (hsame : w'.files.locate true path = w'.files.locate true b.certificateAt)
    (hfiles : w₂.files = (run w logSetting arguments).2.files)
    (h₂ : Obtains w₂ arguments values b a₂ w₃) : a₂.origin = .generated := by
  obtain ⟨hs, hfound⟩ := Bootstrapper.found_of_bootstrap (w := started w) hw hprimes hapart
    h.bootstrap (.refl b) fun hv => .inl hv
  obtain ⟨hread, -⟩ := Bootstrapper.reads_of_found hfound
  obtain ⟨loc, m, hcertificate⟩ := read_eq_ok_iff.mp hread
  obtain ⟨-, hexports⟩ := h.shows_and_exports hs logSetting
  rw [← hfiles] at hexports
  obtain ⟨events, hload⟩ := Bootstrapper.load_of_settled (w := started w₂) (hexports.settled hs)
  -- an authority that was not minted was loaded from the files, where there is none
  rcases Bootstrapper.bootstrap_ok h₂.bootstrap with hloaded | ⟨_, _, _, _, hminted⟩
  · rw [hload] at hloaded
    have hagain : b.found w₂.files = .ok a₂ := (Prod.mk.inj hloaded).1
    exact (hexports.not_found hpath ⟨rfl, .inr ⟨m, _, rfl⟩⟩ (hsame.trans hcertificate) hcertificate
      hagain).elim
  · exact hminted.origin

/-- Arguments that export the certificate onto itself. -/
def exportingOver : List String := ["--dir", "/store", "--export-pem", "/store/ca.der"]

theorem plan_exportingOver (w : World) : plan w exportingOver
    = ([(.directory, "/store"), (.exportPem, "/store/ca.der")], some Bootstrapper.inStore) := rfl

/-- The first run gets an authority, no later one recovers it. -/
theorem not_recovered_exportingOver : ∃ values a w',
    Obtains World.untouched exportingOver values Bootstrapper.inStore a w' ∧
    Bootstrapper.inStore.PathsApart (Bootstrapper.inStore.locator.prepare World.untouched.files) ∧
    ¬∃ values₂ b₂ a₂ w₃, Obtains (afterwards World.untouched exportingOver) exportingOver
      values₂ b₂ a₂ w₃ ∧ a₂.origin = .recovered := by
  obtain ⟨a, w', h, -⟩ := obtains_inStore (plan_exportingOver World.untouched)
  have hapart := Bootstrapper.places_inStore.pathsApart
  refine ⟨_, a, w', h, hapart, ?_⟩
  rintro ⟨values₂, b₂, a₂, w₃, h₂, horigin⟩
  obtain ⟨rfl, hb⟩ := Prod.mk.inj (h₂.plan.symm.trans (plan_exportingOver _))
  obtain rfl := Option.some.inj hb
  have hgenerated := generated_of_exportedOver Bootstrapper.wellFormed_untouched
    World.isFresh_untouched hapart h rfl rfl (files_afterwards World.untouched exportingOver) h₂
  rw [horigin] at hgenerated
  cases hgenerated

end CommandLine

end RootAuthority
