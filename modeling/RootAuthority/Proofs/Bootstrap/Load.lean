import RootAuthority.Bootstrap.Basic
import RootAuthority.Proofs.Mint
import RootAuthority.Proofs.Storage.Locator

/-!
# What a bootstrapper finds on disk

Loading is a function of the file system with the storage directory prepared (`Bootstrapper.found`):
besides preparing it, loading changes the log only (`Bootstrapper.load_eq`). An authority that is
found is the one that both files hold (`Bootstrapper.found_eq_ok_iff`), and whoever looks in the
same places finds it too (`Bootstrapper.SamePlaces.found`).
-/

namespace RootAuthority

namespace FileSystem

variable {fs : FileSystem} {p : Path}

theorem readArtifact_eq_ok_iff {contents : Octets} :
    fs.readArtifact p = .ok contents ↔ fs.read p = .ok contents := by
  unfold readArtifact
  split
  · next h =>
    rw [h, Except.ok.injEq, Except.ok.injEq]
  · next h =>
    rw [h]
    exact ⟨nofun, nofun⟩
  · next h =>
    rw [h]
    exact ⟨nofun, nofun⟩

/-- **The certificate in a file** is the one that its contents are read as. -/
theorem readCertificate_eq_ok_iff {c : Certificate} : fs.readCertificate p = .ok c ↔
    ∃ contents, fs.read p = .ok contents ∧ Certificate.ofDer contents = .ok c := by
  simp only [readCertificate, bind_eq_ok_iff, mapError_eq_ok_iff,
    readArtifact_eq_ok_iff]

/-- **The private key in a file** is the one that its contents are read as. -/
theorem readPrivateKey_eq_ok_iff {k : StoredKey} : fs.readPrivateKey p = .ok k ↔
    ∃ contents, fs.read p = .ok contents ∧ StoredKey.ofContainer contents = .ok k := by
  simp only [readPrivateKey, bind_eq_ok_iff, mapError_eq_ok_iff,
    readArtifact_eq_ok_iff]

end FileSystem

/-! ## 1. The world -/

namespace World

@[simp] theorem files_report (w : World) (events : List LogEvent) :
    (w.report events).files = w.files := rfl

theorem report_report (w : World) (events events' : List LogEvent) :
    (w.report events).report events' = w.report (events ++ events') := by
  simp [report]

/-- **The answer to a path asked for**; the storage directory is prepared, events are reported. -/
theorem resolve_eq (w : World) (l : Locator) (file : String) :
    ∃ events, w.resolve l file
      = (l.pathOf file, { w with files := l.prepare w.files }.report events) := by
  obtain ⟨events, h⟩ := l.resolve_eq file w.files
  exact ⟨events, by rw [resolve, h]⟩

end World

/-! ## 2. Loading -/

namespace Bootstrapper

variable {b b' : Bootstrapper} {fs : FileSystem} {w : World} {a : Authority}

/-- Where the certificate is kept. -/
def certificateAt (b : Bootstrapper) : Path := b.locator.pathOf b.certificateFile

/-- Where the key is kept. -/
def keyAt (b : Bootstrapper) : Path := b.locator.pathOf b.keyFile

/-- **The authority that a file system holds**, or what is in the way. -/
def found (b : Bootstrapper) (fs : FileSystem) : Except LoadError Authority := do
  let certificate ← fs.readCertificate b.certificateAt
  let key ← fs.readPrivateKey b.keyAt
  b.pair b.certificateAt b.keyAt certificate key

/-- Asking for the path of the certificate prepares the storage directory. -/
theorem certificatePath_eq (b : Bootstrapper) (w : World) : ∃ events, b.certificatePath w
    = (b.certificateAt, { w with files := b.locator.prepare w.files }.report events) :=
  w.resolve_eq b.locator b.certificateFile

/-- And so does asking for the path of the key. -/
theorem keyPath_eq (b : Bootstrapper) (w : World) : ∃ events, b.keyPath w
    = (b.keyAt, { w with files := b.locator.prepare w.files }.report events) :=
  w.resolve_eq b.locator b.keyFile

/-- What the first step does. -/
theorem readCertificate_eq (b : Bootstrapper) (w : World) :
    ∃ events, b.readCertificate w
      = (((b.locator.prepare w.files).readCertificate b.certificateAt).map (b.certificateAt, ·),
        { w with files := b.locator.prepare w.files }.report events) := by
  obtain ⟨events, hpath⟩ := b.certificatePath_eq w
  simp only [readCertificate, hpath, World.files_report]
  cases (b.locator.prepare w.files).readCertificate b.certificateAt with
  | ok certificate => exact ⟨events, rfl⟩
  | error e => exact ⟨_, congrArg (Prod.mk _) (World.report_report _ _ _)⟩

/-- What the second step does. -/
theorem readKey_eq (b : Bootstrapper) (path : Path) (certificate : Certificate) (w : World) :
    ∃ events, b.readKey path certificate w
      = ((b.locator.prepare w.files).readPrivateKey b.keyAt >>= b.pair path b.keyAt certificate,
        { w with files := b.locator.prepare w.files }.report events) := by
  obtain ⟨events, hpath⟩ := b.keyPath_eq w
  simp only [readKey, hpath, World.files_report]
  cases (b.locator.prepare w.files).readPrivateKey b.keyAt with
  | error e => exact ⟨_, congrArg (Prod.mk _) (World.report_report _ _ _)⟩
  | ok key =>
    simp only [bind, Except.bind]
    cases b.pair path b.keyAt certificate key with
    | error e => exact ⟨_, congrArg (Prod.mk _) (World.report_report _ _ _)⟩
    | ok authority => exact ⟨_, congrArg (Prod.mk _) (World.report_report _ _ _)⟩

/-- **Loading** gives what the prepared file system holds, and but for the preparation it changes
    the log only. -/
theorem load_eq (h : b.locator.Settled (b.locator.prepare w.files)) :
    ∃ events, b.load w = (b.found (b.locator.prepare w.files),
      { w with files := b.locator.prepare w.files }.report events) := by
  obtain ⟨events, hcertificate⟩ := b.readCertificate_eq w
  rw [load, hcertificate, found]
  cases hc : (b.locator.prepare w.files).readCertificate b.certificateAt with
  | error e => exact ⟨events, rfl⟩
  | ok certificate =>
    obtain ⟨events', hkey⟩ := b.readKey_eq b.certificateAt certificate
      ({ w with files := b.locator.prepare w.files }.report events)
    rw [World.files_report, Locator.prepare_of_settled h] at hkey
    have hreport := World.report_report { w with files := b.locator.prepare w.files } events events'
    exact ⟨events ++ events', hkey.trans (congrArg (Prod.mk _) hreport)⟩

/-- Where nothing is left to prepare, loading changes the log only. -/
theorem load_of_settled (h : b.locator.Settled w.files) :
    ∃ events, b.load w = (b.found w.files, w.report events) := by
  have hprepare := Locator.prepare_of_settled h
  obtain ⟨events, hload⟩ := load_eq (b := b) (w := w) (hprepare.symm ▸ h)
  rw [hprepare] at hload
  exact ⟨events, hload⟩

/-! ## 3. What is found -/

theorem pair_eq_ok_iff {path path' : Path} {c : Certificate} {k : StoredKey} :
    b.pair path path' c k = .ok a ↔
      (b.verifyKeyBinding = true → a.keyMatches = true) ∧ a = ⟨c, k, .recovered⟩ := by
  unfold pair
  dsimp only
  split
  · next h =>
    refine ⟨nofun, ?_⟩
    rintro ⟨hmatches, rfl⟩
    rw [hmatches h.1] at h
    exact nomatch h.2
  · next h =>
    constructor
    · rintro ⟨⟩
      refine ⟨fun hverify => ?_, rfl⟩
      exact Bool.eq_true_of_not_eq_false fun hm => h ⟨hverify, hm⟩
    · rintro ⟨-, rfl⟩
      rfl

/-- **What loading gives in any world**: a certificate and a key that files held, and the check of
    the binding passed, if it is on. -/
theorem load_ok {w' : World} (h : b.load w = (.ok a, w')) :
    (∃ files : FileSystem, files.readCertificate b.certificateAt = .ok a.certificate) ∧
    (∃ files : FileSystem, files.readPrivateKey b.keyAt = .ok a.privateKey) ∧
    (b.verifyKeyBinding = true → a.keyMatches = true) ∧ a.origin = .recovered := by
  obtain ⟨events, hcertificate⟩ := b.readCertificate_eq w
  rw [load, hcertificate] at h
  cases hc : (b.locator.prepare w.files).readCertificate b.certificateAt with
  | error e =>
    rw [hc] at h
    cases h
  | ok certificate =>
    obtain ⟨events', hkey⟩ := b.readKey_eq b.certificateAt certificate
      ({ w with files := b.locator.prepare w.files }.report events)
    rw [hc] at h
    obtain ⟨key, hk, hpair⟩ := bind_eq_ok_iff.mp (Prod.mk.inj (hkey.symm.trans h)).1
    obtain ⟨hmatches, rfl⟩ := pair_eq_ok_iff.mp hpair
    exact ⟨⟨_, hc⟩, ⟨_, hk⟩, hmatches, rfl⟩

/-- **An authority is found** if both files hold it and it passes the check of the binding. -/
theorem found_eq_ok_iff : b.found fs = .ok a ↔
    fs.readCertificate b.certificateAt = .ok a.certificate ∧
    fs.readPrivateKey b.keyAt = .ok a.privateKey ∧
    (b.verifyKeyBinding = true → a.keyMatches = true) ∧ a.origin = .recovered := by
  simp only [found, bind_eq_ok_iff, pair_eq_ok_iff]
  constructor
  · rintro ⟨c, hc, k, hk, hmatches, rfl⟩
    exact ⟨hc, hk, hmatches, rfl⟩
  · rintro ⟨hc, hk, hmatches, horigin⟩
    refine ⟨_, hc, _, hk, hmatches, ?_⟩
    rw [← horigin]

/-- Two bootstrappers look in the same places. -/
structure SamePlaces (b b' : Bootstrapper) : Prop where
  locator : b'.locator = b.locator
  certificateFile : b'.certificateFile = b.certificateFile
  keyFile : b'.keyFile = b.keyFile

namespace SamePlaces

theorem refl (b : Bootstrapper) : b.SamePlaces b := ⟨rfl, rfl, rfl⟩

theorem certificateAt (h : b.SamePlaces b') : b'.certificateAt = b.certificateAt := by
  rw [Bootstrapper.certificateAt, h.locator, h.certificateFile, Bootstrapper.certificateAt]

theorem keyAt (h : b.SamePlaces b') : b'.keyAt = b.keyAt := by
  rw [Bootstrapper.keyAt, h.locator, h.keyFile, Bootstrapper.keyAt]

/-- **What was found is found again** in the same places. -/
theorem found (h : b.SamePlaces b') (hfound : b.found fs = .ok a)
    (hmatches : b'.verifyKeyBinding = true → a.keyMatches = true) : b'.found fs = .ok a := by
  obtain ⟨hc, hk, -, horigin⟩ := found_eq_ok_iff.mp hfound
  refine found_eq_ok_iff.mpr ⟨?_, ?_, hmatches, horigin⟩
  · rw [h.certificateAt]
    exact hc
  · rw [h.keyAt]
    exact hk

end SamePlaces

end Bootstrapper

end RootAuthority
