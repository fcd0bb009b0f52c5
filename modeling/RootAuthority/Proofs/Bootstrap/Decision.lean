import RootAuthority.Proofs.Bootstrap.Binding
import RootAuthority.Proofs.Bootstrap.Frame
import RootAuthority.Proofs.Storage.Missing

/-!
# What loading decides, and what it reports

Loading goes through five checks: the certificate is read and decoded, the key is read and decoded,
and the binding of the two is looked at. The first check that fails decides the error and the event
that is reported; if none does, the authority is the one in the two files.
`Bootstrapper.Decision` has a rule for each of these outcomes, on top of the reasons for which a
file holds no certificate (`FileSystem.LacksCertificate`) and no key (`FileSystem.LacksKey`).
`Bootstrapper.load_decision` says that loading follows exactly one of them, always the same one, and
does nothing else but create the storage directory.
-/

namespace RootAuthority

/-! ## 1. Messages about the storage directory -/

namespace Locator

variable {l : Locator}

/-- **An event about the creation of the storage directory.** -/
inductive IsDirectoryMessage (l : Locator) : LogEvent → Prop
  | created {dir : Path} (h : l.directory = some dir) :
      IsDirectoryMessage l ⟨.storage, .debug, "created storage directory " ++ dir⟩
  | failed {dir : Path} (h : l.directory = some dir) (e : FileError) :
      IsDirectoryMessage l
        ⟨.storage, .warn, "failed to create storage directory " ++ dir ++ ": " ++ e.message⟩

/-- Asking for a path reports nothing else. -/
theorem isDirectoryMessage_of_resolve {file : String} {fs : FileSystem} {e : LogEvent}
    (he : e ∈ (l.resolve file fs).2.2) : l.IsDirectoryMessage e := by
  obtain ⟨_ | dir⟩ := l
  · cases he
  · simp only [resolve, ensureDirectory] at he
    split at he
    · cases he
    · split at he
      · rw [List.mem_singleton.mp he]
        exact .created rfl
      · cases he
      · rw [List.mem_singleton.mp he]
        exact .failed rfl _

end Locator

/-- The answer to a path asked for, and what is reported. -/
theorem World.resolve_reports (w : World) (l : Locator) (file : String) :
    ∃ events, (∀ e ∈ events, l.IsDirectoryMessage e) ∧
      w.resolve l file = (l.pathOf file, { w with files := l.prepare w.files }.report events) := by
  obtain ⟨events, h⟩ := l.resolve_eq file w.files
  have hevents : (l.resolve file w.files).2.2 = events := congrArg (fun answer => answer.2.2) h
  refine ⟨events, fun e he => ?_, by rw [resolve, h]⟩
  exact Locator.isDirectoryMessage_of_resolve (hevents.symm ▸ he)

/-! ## 2. What is wrong with a file -/

/-- A container for another algorithm is told apart for stored keys, too. -/
theorem StoredKey.ofContainer_eq_notRsa_iff {bs : Octets} {algorithm : String} :
    ofContainer bs = .error (.notRsa algorithm) ↔ ∃ c, Rsa.Container.ofDer? bs = some c ∧
      c.algorithm ≠ Der.ObjectId.rsaEncryption ∧
      (Der.ObjectId.dotted? c.algorithm).getD "" = algorithm := by
  rw [← Rsa.PrivateKey.ofContainer_eq_notRsa_iff, ofContainer]
  cases Rsa.PrivateKey.ofContainer bs with
  | ok key => simp only [Except.map, reduceCtorEq]
  | error cause => simp only [Except.map, Except.error.injEq]

/-- Any other cause is that the file cannot be decoded. -/
theorem LoadError.ofKey_eq_undecodable {p : Path} {cause : DecodeError}
    (h : ∀ algorithm, cause ≠ .notRsa algorithm) : ofKey p cause = .undecodable p cause := by
  cases cause with
  | notRsa algorithm => exact (h algorithm rfl).elim
  | _ => rfl

namespace FileSystem

variable {fs : FileSystem} {p : Path} {e : LoadError}

/-- **The contents of a file cannot be had**: it is missing, or reading it fails for another
    reason. -/
inductive Withholds (fs : FileSystem) (p : Path) : LoadError → Prop
  | missing (h : fs.Missing p) : Withholds fs p (.notFound p)
  | unreadable {cause : FileError} (h : fs.read p = .error cause) (hcause : cause ≠ .noSuchEntry) :
      Withholds fs p (.unreadable p cause)

theorem readArtifact_eq_error_iff : fs.readArtifact p = .error e ↔ fs.Withholds p e := by
  unfold readArtifact
  constructor
  · intro h
    split at h
    · cases h
    · next hread =>
      cases h
      exact .missing (read_eq_noSuchEntry_iff.mp hread)
    · next cause hother hread =>
      cases h
      exact .unreadable hread fun heq => hother (heq ▸ rfl)
  · intro h
    cases h with
    | missing h => rw [read_eq_noSuchEntry_iff.mpr h]
    | @unreadable cause h hcause =>
      rw [h]
      cases cause with
      | noSuchEntry => exact (hcause rfl).elim
      | _ => rfl

/-- **A file holds a certificate**, octet by octet. -/
def HoldsCertificate (fs : FileSystem) (p : Path) (c : Certificate) : Prop :=
  fs.read p = .ok c.der ∧ Certificate.ofDer c.der = .ok c

/-- **A file does not hold a certificate**, and why. -/
inductive LacksCertificate (fs : FileSystem) (p : Path) : LoadError → Prop
  | withheld {e : LoadError} (h : fs.Withholds p e) : LacksCertificate fs p e
  | undecodable {contents : Octets} {cause : DecodeError} (hread : fs.read p = .ok contents)
      (h : Certificate.ofDer contents = .error cause) :
      LacksCertificate fs p (.undecodable p cause)

/-- **A file holds a private key**, octet by octet. -/
def HoldsKey (fs : FileSystem) (p : Path) (k : StoredKey) : Prop :=
  fs.read p = .ok k.container ∧ StoredKey.ofContainer k.container = .ok k

/-- **A file does not hold a private key**, and why. -/
inductive LacksKey (fs : FileSystem) (p : Path) : LoadError → Prop
  | withheld {e : LoadError} (h : fs.Withholds p e) : LacksKey fs p e
  /-- A container for another algorithm, whatever it holds. -/
  | otherType {contents : Octets} {c : Rsa.Container} (hread : fs.read p = .ok contents)
      (h : Rsa.Container.ofDer? contents = some c)
      (hother : c.algorithm ≠ Der.ObjectId.rsaEncryption) :
      LacksKey fs p (.wrongKeyType p (.notRsa ((Der.ObjectId.dotted? c.algorithm).getD "")))
  | undecodable {contents : Octets} {cause : DecodeError} (hread : fs.read p = .ok contents)
      (h : StoredKey.ofContainer contents = .error cause)
      (hrsa : ∀ c, Rsa.Container.ofDer? contents = some c →
        c.algorithm = Der.ObjectId.rsaEncryption) :
      LacksKey fs p (.undecodable p cause)

theorem readCertificate_eq_ok_iff_holds {c : Certificate} :
    fs.readCertificate p = .ok c ↔ fs.HoldsCertificate p c := by
  rw [readCertificate_eq_ok_iff]
  constructor
  · intro h
    rcases h with ⟨contents, hread, hc⟩
    obtain rfl := Certificate.der_of_ofDer hc
    exact ⟨hread, hc⟩
  · intro h
    rcases h with ⟨hread, hc⟩
    exact ⟨_, hread, hc⟩

theorem readPrivateKey_eq_ok_iff_holds {k : StoredKey} :
    fs.readPrivateKey p = .ok k ↔ fs.HoldsKey p k := by
  rw [readPrivateKey_eq_ok_iff]
  constructor
  · intro h
    rcases h with ⟨contents, hread, hk⟩
    obtain ⟨-, rfl⟩ := StoredKey.ofContainer_eq_ok_iff.mp hk
    exact ⟨hread, hk⟩
  · intro h
    rcases h with ⟨hread, hk⟩
    exact ⟨_, hread, hk⟩

/-- **Every reason why no certificate is read**, and no other. -/
theorem readCertificate_eq_error_iff :
    fs.readCertificate p = .error e ↔ fs.LacksCertificate p e := by
  simp only [readCertificate, bind_eq_error_iff, mapError_eq_error_iff, readArtifact_eq_error_iff,
    readArtifact_eq_ok_iff]
  constructor
  · intro h
    rcases h with h | ⟨contents, hread, cause, hcause, rfl⟩
    · exact .withheld h
    · exact .undecodable hread hcause
  · intro h
    cases h with
    | withheld h => exact .inl h
    | undecodable hread h => exact .inr ⟨_, hread, _, h, rfl⟩

/-- **Every reason why no key is read**, and no other. -/
theorem readPrivateKey_eq_error_iff : fs.readPrivateKey p = .error e ↔ fs.LacksKey p e := by
  simp only [readPrivateKey, bind_eq_error_iff, mapError_eq_error_iff, readArtifact_eq_error_iff,
    readArtifact_eq_ok_iff]
  constructor
  · intro h
    rcases h with h | ⟨contents, hread, cause, hcause, rfl⟩
    · exact .withheld h
    · by_cases hother : ∃ c, Rsa.Container.ofDer? contents = some c ∧
          c.algorithm ≠ Der.ObjectId.rsaEncryption
      · obtain ⟨c, hcontainer, hother⟩ := hother
        have hnotRsa := StoredKey.ofContainer_eq_notRsa_iff.mpr ⟨c, hcontainer, hother, rfl⟩
        obtain rfl := Except.error.inj (hcause.symm.trans hnotRsa)
        exact .otherType hread hcontainer hother
      · have hrsa (algorithm : String) : cause ≠ .notRsa algorithm := by
          rintro rfl
          obtain ⟨c, hcontainer, hne, -⟩ := StoredKey.ofContainer_eq_notRsa_iff.mp hcause
          exact hother ⟨c, hcontainer, hne⟩
        rw [LoadError.ofKey_eq_undecodable hrsa]
        exact .undecodable hread hcause fun c hcontainer =>
          by_contra fun hne => hother ⟨c, hcontainer, hne⟩
  · intro h
    cases h with
    | withheld h => exact .inl h
    | otherType hread h hother =>
      exact .inr ⟨_, hread, _, StoredKey.ofContainer_eq_notRsa_iff.mpr ⟨_, h, hother, rfl⟩, rfl⟩
    | undecodable hread h hrsa =>
      refine .inr ⟨_, hread, _, h, LoadError.ofKey_eq_undecodable fun algorithm => ?_⟩
      rintro rfl
      obtain ⟨c, hcontainer, hother, -⟩ := StoredKey.ofContainer_eq_notRsa_iff.mp h
      exact hother (hrsa c hcontainer)

end FileSystem

/-! ## 3. The decision -/

namespace Bootstrapper

/-- The report on a key that could not be taken from disk. -/
def keyReport (e : LoadError) : LogEvent :=
  ⟨.bootstrap, .warn, "error reading CA private key, regenerating: " ++ e.message⟩

/-- The report on a certificate and a key that do not belong together. -/
def mismatchReport (e : LoadError) : LogEvent := ⟨.bootstrap, .warn, e.message ++ ", regenerating"⟩

/-- The report on an authority that was found. -/
def recoveryReport (path : Path) (c : Certificate) : LogEvent :=
  ⟨.bootstrap, .info,
    "recovered CA certificate (serial " ++ c.serial.toHex ++ ") from " ++ path⟩

/-- **The outcome of loading and the event that reports it**, for a file system with the storage
    directory created. The rules are in the order of the checks: each says that those before it were
    passed. -/
inductive Decision (b : Bootstrapper) (fs : FileSystem) :
    Except LoadError Authority → LogEvent → Prop
  | noCertificate {e : LoadError} (h : fs.LacksCertificate b.certificateAt e) :
      Decision b fs (.error e) (certificateReport b.certificateAt e)
  | noKey {c : Certificate} {e : LoadError} (hc : fs.HoldsCertificate b.certificateAt c)
      (h : fs.LacksKey b.keyAt e) :
      Decision b fs (.error e) (keyReport e)
  | mismatch {c : Certificate} {k : StoredKey} (hc : fs.HoldsCertificate b.certificateAt c)
      (hk : fs.HoldsKey b.keyAt k) (hverify : b.verifyKeyBinding = true)
      (h : k.key.publicKey.encode ≠ c.publicKey.key) :
      Decision b fs (.error (.keyMismatch b.certificateAt b.keyAt))
        (mismatchReport (.keyMismatch b.certificateAt b.keyAt))
  | recovered {c : Certificate} {k : StoredKey} (hc : fs.HoldsCertificate b.certificateAt c)
      (hk : fs.HoldsKey b.keyAt k)
      (h : b.verifyKeyBinding = true → k.key.publicKey.encode = c.publicKey.key) :
      Decision b fs (.ok ⟨c, k, .recovered⟩) (recoveryReport b.certificateAt c)

variable {b : Bootstrapper} {w : World} {fs : FileSystem} {c : Certificate}
  {result : Except LoadError Authority} {event : LogEvent}

/-- **There is always a decision.** -/
theorem exists_decision (b : Bootstrapper) (fs : FileSystem) :
    ∃ result event, b.Decision fs result event := by
  cases hc : fs.readCertificate b.certificateAt with
  | error e => exact ⟨_, _, .noCertificate (FileSystem.readCertificate_eq_error_iff.mp hc)⟩
  | ok c =>
    have hholds := FileSystem.readCertificate_eq_ok_iff_holds.mp hc
    cases hk : fs.readPrivateKey b.keyAt with
    | error e => exact ⟨_, _, .noKey hholds (FileSystem.readPrivateKey_eq_error_iff.mp hk)⟩
    | ok k =>
      have hkey := FileSystem.readPrivateKey_eq_ok_iff_holds.mp hk
      by_cases hmismatch : b.verifyKeyBinding = true ∧ k.key.publicKey.encode ≠ c.publicKey.key
      · exact ⟨_, _, .mismatch hholds hkey hmismatch.1 hmismatch.2⟩
      · refine ⟨_, _, .recovered hholds hkey fun hverify => ?_⟩
        by_contra hne
        exact hmismatch ⟨hverify, hne⟩

/-- What happens where no certificate is read. -/
theorem load_of_noCertificate {e : LoadError}
    (h : (b.locator.prepare w.files).readCertificate b.certificateAt = .error e) :
    ∃ events, (∀ x ∈ events, b.locator.IsDirectoryMessage x) ∧
      b.load w = (.error e, { w with files := b.locator.prepare w.files }.report
        (events ++ [certificateReport b.certificateAt e])) := by
  obtain ⟨events, hevents, hpath⟩ := w.resolve_reports b.locator b.certificateFile
  refine ⟨events, hevents, ?_⟩
  rw [← World.report_report]
  simp only [load, readCertificate, certificatePath, hpath, World.files_report]
  rw [show b.locator.pathOf b.certificateFile = b.certificateAt from rfl, h]

/-- **What happens where a certificate is read**: the key is next. -/
theorem load_of_certificate (hs : b.locator.Settled (b.locator.prepare w.files))
    (hc : fs.readCertificate b.certificateAt = .ok c) (hfs : fs = b.locator.prepare w.files) :
    ∃ between events, (∀ x ∈ events, b.locator.IsDirectoryMessage x) ∧
      b.load w = b.readKey b.certificateAt c between ∧
      b.keyPath between = (b.keyAt, { w with files := fs }.report events) := by
  subst hfs
  obtain ⟨events, hevents, hpath⟩ := w.resolve_reports b.locator b.certificateFile
  obtain ⟨events', hevents', hpath'⟩ := World.resolve_reports
    ({ w with files := b.locator.prepare w.files }.report events) b.locator b.keyFile
  rw [World.files_report, Locator.prepare_of_settled hs] at hpath'
  refine ⟨{ w with files := b.locator.prepare w.files }.report events, events ++ events',
    fun x hx => ?_, ?_, ?_⟩
  · rcases List.mem_append.mp hx with hx | hx
    · exact hevents x hx
    · exact hevents' x hx
  · simp only [load, readCertificate, certificatePath, hpath, World.files_report]
    rw [show b.locator.pathOf b.certificateFile = b.certificateAt from rfl, hc]
  · rw [← World.report_report]
    exact hpath'

/-- **Loading follows every decision** there is, reports it after the messages about the storage
    directory, and changes nothing else. -/
theorem load_of_decision (hs : b.locator.Settled (b.locator.prepare w.files))
    (h : b.Decision fs result event) (hfs : fs = b.locator.prepare w.files) :
    ∃ events, (∀ x ∈ events, b.locator.IsDirectoryMessage x) ∧
      b.load w = (result, { w with files := fs }.report (events ++ [event])) := by
  cases h with
  | noCertificate h =>
    subst hfs
    exact load_of_noCertificate (FileSystem.readCertificate_eq_error_iff.mpr h)
  | noKey hc h =>
    obtain ⟨between, events, hevents, hload, hkeyPath⟩ :=
      load_of_certificate hs (FileSystem.readCertificate_eq_ok_iff_holds.mpr hc) hfs
    have hk := FileSystem.readPrivateKey_eq_error_iff.mpr h
    refine ⟨events, hevents, ?_⟩
    simp only [hload, readKey, hkeyPath, World.files_report, hk, World.report_report, keyReport]
  | @mismatch c k hc hk hverify h =>
    obtain ⟨between, events, hevents, hload, hkeyPath⟩ :=
      load_of_certificate hs (FileSystem.readCertificate_eq_ok_iff_holds.mpr hc) hfs
    have hk := FileSystem.readPrivateKey_eq_ok_iff_holds.mpr hk
    have hpair : b.pair b.certificateAt b.keyAt c k
        = .error (.keyMismatch b.certificateAt b.keyAt) :=
      if_pos ⟨hverify, decide_eq_false h⟩
    refine ⟨events, hevents, ?_⟩
    simp only [hload, readKey, hkeyPath, World.files_report, hk, hpair, World.report_report,
      mismatchReport]
  | @recovered c k hc hk h =>
    obtain ⟨between, events, hevents, hload, hkeyPath⟩ :=
      load_of_certificate hs (FileSystem.readCertificate_eq_ok_iff_holds.mpr hc) hfs
    have hk := FileSystem.readPrivateKey_eq_ok_iff_holds.mpr hk
    have hpair : b.pair b.certificateAt b.keyAt c k = .ok ⟨c, k, .recovered⟩ :=
      pair_eq_ok_iff.mpr ⟨fun hverify => decide_eq_true (h hverify), rfl⟩
    refine ⟨events, hevents, ?_⟩
    simp only [hload, readKey, hkeyPath, World.files_report, hk, hpair, World.report_report,
      recoveryReport]

/-- **There is only one decision**, since loading follows all of them. -/
theorem Decision.unique (hs : b.locator.Settled (b.locator.prepare w.files))
    {result' : Except LoadError Authority} {event' : LogEvent}
    (h : b.Decision (b.locator.prepare w.files) result event)
    (h' : b.Decision (b.locator.prepare w.files) result' event') :
    result' = result ∧ event' = event := by
  obtain ⟨events, -, hload⟩ := load_of_decision hs h rfl
  obtain ⟨events', -, hload'⟩ := load_of_decision hs h' rfl
  obtain ⟨hresult, hworld⟩ := Prod.mk.inj (hload'.symm.trans hload)
  have hlog : events' ++ [event'] = events ++ [event] :=
    List.append_cancel_left (congrArg World.log hworld)
  exact ⟨hresult, List.singleton_inj.mp (List.append_inj' hlog rfl).2⟩

/-- **The decision of loading** is complete and ordered, and it has no side effects. There is
    exactly one decision for what the files hold once the storage directory was created, and it is
    the outcome. Besides messages about this directory, exactly one event is reported, the one of
    the decision. The directory and those above it, where they were missing, are all that is
    created; no other entry changes, and neither do clock, serial source and primes. Whoever loads
    again comes to the same decision, and creates nothing. -/
theorem load_decision (b : Bootstrapper) (w : World) (hw : w.files.WellFormed) :
    ∃ result event events, b.Decision (b.locator.prepare w.files) result event ∧
      (∀ result' event', b.Decision (b.locator.prepare w.files) result' event' →
        result' = result ∧ event' = event) ∧
      b.load w = (result,
        { w with files := b.locator.prepare w.files }.report (events ++ [event])) ∧
      (∀ x ∈ events, b.locator.IsDirectoryMessage x) ∧
      FileSystem.Frame b.locator.chain [] w.files (b.locator.prepare w.files) ∧
      ∃ events', (∀ x ∈ events', b.locator.IsDirectoryMessage x) ∧
        b.load (b.load w).2 = (result, (b.load w).2.report (events' ++ [event])) := by
  have hs : b.locator.Settled (b.locator.prepare w.files) := Locator.settled_prepare hw
  obtain ⟨result, event, hdecision⟩ := b.exists_decision (b.locator.prepare w.files)
  obtain ⟨events, hevents, hload⟩ := load_of_decision hs hdecision rfl
  refine ⟨result, event, events, hdecision, fun _ _ => hdecision.unique hs, hload, hevents,
    (FileSystem.Frame.refl w.files).prepare, ?_⟩
  -- nothing is left to prepare, so the second time the files are the same
  have hfiles : (b.load w).2.files = b.locator.prepare w.files := by rw [hload, World.files_report]
  have hprepare : b.locator.prepare w.files = b.locator.prepare (b.load w).2.files := by
    rw [hfiles, Locator.prepare_of_settled hs]
  obtain ⟨events', hevents', hload'⟩ :=
    load_of_decision (w := (b.load w).2) (hprepare ▸ hs) hdecision hprepare
  rw [← hfiles] at hload'
  exact ⟨events', hevents', hload'⟩

/-- A key file for Ed25519. -/
def otherKey : Octets :=
  Der.sequence [Der.integer 0,
    Der.sequence [Der.primitive Der.Tag.objectId (Der.ObjectId.ofArcs [1, 3, 101, 112])],
    Der.primitive Der.Tag.octetString (Der.primitive Der.Tag.octetString (List.replicate 32 7))]

/-- What is in the way of taking it for an RSA key. -/
def otherKeyRefused : LoadError := .wrongKeyType "/store/caKey.der" (.notRsa "1.3.101.112")

/-- A minted certificate beside a key of another type: the certificate passes its checks, the key
    does not, and no file is touched, now and the next time. -/
theorem load_decision_otherType : ∃ c : Certificate,
    (twoFiles c.der otherKey).files.HoldsCertificate "/store/ca.der" c ∧
    ∃ events w', w' = (twoFiles c.der otherKey).report (events ++ [keyReport otherKeyRefused]) ∧
      (∀ x ∈ events, inStore.locator.IsDirectoryMessage x) ∧
      inStore.load (twoFiles c.der otherKey) = (.error otherKeyRefused, w') ∧
      ∃ events', (∀ x ∈ events', inStore.locator.IsDirectoryMessage x) ∧
        inStore.load w'
          = (.error otherKeyRefused, w'.report (events' ++ [keyReport otherKeyRefused])) := by
  obtain ⟨a, _, _, _, _, -, hminted⟩ := World.exists_minted_untouched
  have hcertificate : (twoFiles a.certificate.der otherKey).files.HoldsCertificate "/store/ca.der"
      a.certificate := ⟨rfl, hminted.readBack⟩
  have hkey : (twoFiles a.certificate.der otherKey).files.LacksKey "/store/caKey.der"
      otherKeyRefused :=
    .otherType (c := ⟨Der.ObjectId.ofArcs [1, 3, 101, 112], none, _⟩) rfl rfl (by decide)
  obtain ⟨result, event, events, -, hunique, hload, hevents, -, hagain⟩ :=
    load_decision inStore (twoFiles a.certificate.der otherKey) (wellFormed_twoFiles _ _)
  obtain ⟨hresult, hevent⟩ := hunique _ _ (.noKey hcertificate hkey)
  subst hresult hevent
  rw [hload] at hagain
  exact ⟨a.certificate, hcertificate, events, _, rfl, hevents, hload, hagain⟩

end Bootstrapper

end RootAuthority
