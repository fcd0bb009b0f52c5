import RootAuthority.Proofs.Bootstrap.Decision
import RootAuthority.Proofs.Der.Extent
import RootAuthority.Proofs.Storage.Interrupted

/-!
# Torn files are not recovered

The outermost length of a certificate and of a key container says where they end, and both are taken
only if the file ends there, too. So no file that lost its end, and none that has something behind
it, passes for what it was: not as a certificate (`Certificate.ofDer_of_cut`,
`Certificate.ofDer_append`), not as a key (`StoredKey.ofContainer_of_torn`), and not when an
authority is loaded (`Bootstrapper.load_of_tornCertificate`, `Bootstrapper.load_of_tornKey`). All of
it is put together in `Bootstrapper.torn_detected`.
-/

namespace RootAuthority

open Der

/-! ## 1. Certificates and keys -/

namespace Certificate

variable {bs : Octets} {c : Certificate}

/-- **Further octets behind a certificate** are left over, and the certificate is read as before. -/
theorem read_append {rest : Octets} {p : Parts} (h : read bs = some (p, rest)) (more : Octets) :
    read (bs ++ more) = some (p, rest ++ more) := by
  obtain ⟨⟨content, rest'⟩, houter, h⟩ := Option.bind_eq_some_iff.mp h
  obtain ⟨⟨signed, fields, inner⟩, hsigned, h⟩ := Option.bind_eq_some_iff.mp h
  obtain ⟨⟨algorithm, inner'⟩, halgorithm, h⟩ := Option.bind_eq_some_iff.mp h
  obtain ⟨⟨signature, unread⟩, hsignature, h⟩ := Option.bind_eq_some_iff.mp h
  obtain ⟨rfl, rfl⟩ := Prod.mk.inj (Option.some.inj h)
  simp [read, delimits_readTagged _ houter more, hsigned, halgorithm, hsignature]

/-- **A certificate with its end cut off is malformed.** -/
theorem ofDer_of_cut {front more : Octets} (h : ofDer (front ++ more) = .ok c) (hmore : more ≠ []) :
    ofDer front = .error .certificate := by
  obtain ⟨p, hwhole, -⟩ := ofDer_eq_ok_iff.mp h
  cases hfront : read front with
  | none => rw [ofDer_eq, hfront]
  | some found =>
    -- what is left over in front would still be left over, together with what was cut off
    obtain ⟨p', rest⟩ := found
    rw [read_append hfront more] at hwhole
    obtain ⟨-, hrest⟩ := Prod.mk.inj (Option.some.inj hwhole)
    exact (hmore (List.append_eq_nil_iff.mp hrest).2).elim

/-- **Octets behind a certificate are counted.** -/
theorem ofDer_append {more : Octets} (h : ofDer bs = .ok c) (hmore : more ≠ []) :
    ofDer (bs ++ more) = .error (.trailingData more.length) := by
  obtain ⟨p, hbefore, -⟩ := ofDer_eq_ok_iff.mp h
  have hread := read_append hbefore more
  rw [List.nil_append] at hread
  rw [ofDer_eq, hread]
  cases more with
  | nil => exact (hmore rfl).elim
  | cons b more => rfl

/-- **A torn certificate is not one.** -/
theorem ofDer_of_torn {found : Octets} (h : ofDer bs = .ok c) (htorn : bs.Torn found) :
    ∃ cause, ofDer found = .error cause := by
  obtain ⟨more, hmore, rfl⟩ | ⟨more, hmore, rfl⟩ := htorn.cases
  · exact ⟨_, ofDer_of_cut h hmore⟩
  · exact ⟨_, ofDer_append h hmore⟩

end Certificate

/-- **A torn container holds no key**, and is not even a container. -/
theorem StoredKey.ofContainer_of_torn {whole found : Octets} {k : StoredKey}
    (h : ofContainer whole = .ok k) (htorn : whole.Torn found) :
    ofContainer found = .error .container := by
  obtain ⟨hkey, -⟩ := StoredKey.ofContainer_eq_ok_iff.mp h
  obtain ⟨c, hcontainer, -⟩ := Rsa.PrivateKey.exists_of_ofContainer hkey
  obtain ⟨content, honly, -⟩ := Option.bind_eq_some_iff.mp hcontainer
  have hlost := Der.Strict.only_eq_none_of_torn honly htorn
  have hcontainer' : Rsa.Container.ofDer? found = none := by simp [Rsa.Container.ofDer?, hlost]
  have hread : Rsa.PrivateKey.ofContainer found = .error .container :=
    Rsa.PrivateKey.ofContainer_of_none hcontainer'
  rw [ofContainer, hread]
  rfl

/-! ## 2. Files -/

namespace FileSystem

variable {fs : FileSystem} {p : Path} {whole : Octets}

/-- **A file holds what is left of a whole**, or the whole and more. -/
def HoldsTorn (fs : FileSystem) (p : Path) (whole : Octets) : Prop :=
  ∃ found, fs.read p = .ok found ∧ whole.Torn found

theorem HoldsTorn.readCertificate {c : Certificate} (h : fs.HoldsTorn p whole)
    (hc : Certificate.ofDer whole = .ok c) :
    ∃ cause, fs.readCertificate p = .error (.undecodable p cause) := by
  obtain ⟨found, hread, htorn⟩ := h
  obtain ⟨cause, hcause⟩ := Certificate.ofDer_of_torn hc htorn
  refine ⟨cause, ?_⟩
  rw [FileSystem.readCertificate, readArtifact_eq_ok_iff.mpr hread]
  simp only [bind, Except.bind, hcause, Except.mapError]

theorem HoldsTorn.readPrivateKey {k : StoredKey} (h : fs.HoldsTorn p whole)
    (hk : StoredKey.ofContainer whole = .ok k) :
    fs.readPrivateKey p = .error (.undecodable p .container) := by
  obtain ⟨found, hread, htorn⟩ := h
  rw [FileSystem.readPrivateKey, readArtifact_eq_ok_iff.mpr hread]
  simp only [bind, Except.bind, StoredKey.ofContainer_of_torn hk htorn, Except.mapError,
    LoadError.ofKey]

/-- Preparing the storage directory does not touch the file. -/
theorem HoldsTorn.prepare (l : Locator) (h : fs.HoldsTorn p whole) :
    (l.prepare fs).HoldsTorn p whole := by
  obtain ⟨found, hread, htorn⟩ := h
  exact ⟨found, read_prepare l hread, htorn⟩

end FileSystem

/-- **A write that was cut off leaves a torn file.** -/
theorem RestrictedWrite.Interrupted.holdsTorn {p : Path} {contents : Octets}
    {before after : FileSystem} (h : Interrupted p contents before after) :
    after.HoldsTorn p contents := by
  obtain ⟨found, hread, hprefix, hne⟩ := h.read
  exact ⟨found, hread, hne, .inl hprefix⟩

/-! ## 3. Loading -/

namespace Bootstrapper

variable {b : Bootstrapper} {w : World} {whole : Octets}

/-- **A torn certificate is in the way of loading.** -/
theorem load_of_tornCertificate {c : Certificate} (hc : Certificate.ofDer whole = .ok c)
    (h : (b.locator.prepare w.files).HoldsTorn b.certificateAt whole) :
    ∃ cause, (b.load w).1 = .error (.undecodable b.certificateAt cause) := by
  obtain ⟨cause, hread⟩ := h.readCertificate hc
  obtain ⟨events, -, hload⟩ := load_of_noCertificate hread
  exact ⟨cause, congrArg Prod.fst hload⟩

/-- **A torn key is in the way of loading**, if the certificate was not already. -/
theorem load_of_tornKey {k : StoredKey} (hk : StoredKey.ofContainer whole = .ok k)
    (h : (b.locator.prepare w.files).HoldsTorn b.keyAt whole) :
    ∃ e, (b.load w).1 = .error e ∧
      ((b.locator.prepare w.files).readCertificate b.certificateAt = .error e ∨
        e = .undecodable b.keyAt .container) := by
  cases hc : (b.locator.prepare w.files).readCertificate b.certificateAt with
  | error e =>
    obtain ⟨events, -, hload⟩ := load_of_noCertificate hc
    exact ⟨e, congrArg Prod.fst hload, .inl rfl⟩
  | ok certificate =>
    refine ⟨_, ?_, .inr rfl⟩
    obtain ⟨events, hcertificate⟩ := b.readCertificate_eq w
    obtain ⟨events', hkey⟩ := b.readKey_eq b.certificateAt certificate
      ({ w with files := b.locator.prepare w.files }.report events)
    -- the directory is prepared once more before the key is read
    have hread := (h.prepare b.locator).readPrivateKey hk
    rw [load, hcertificate, hc]
    simp only [Except.map]
    rw [hkey, World.files_report, hread]
    rfl

/-- **Torn certificates and keys are always detected.** A certificate that lost its end is
    malformed, and octets behind a certificate are counted; a key container that lost its end or has
    octets behind it is malformed. So no bootstrapper loads an authority from a file in this state,
    and that is the state in which every write that was cut off leaves its file. -/
theorem torn_detected :
    (∀ (bs : Octets) (c : Certificate), Certificate.ofDer bs = .ok c →
      (∀ front, front <+: bs → front ≠ bs → Certificate.ofDer front = .error .certificate) ∧
      ∀ more, more ≠ [] → Certificate.ofDer (bs ++ more) = .error (.trailingData more.length)) ∧
    (∀ (bs : Octets) (k : StoredKey), StoredKey.ofContainer bs = .ok k →
      (∀ front, front <+: bs → front ≠ bs → StoredKey.ofContainer front = .error .container) ∧
      ∀ more, more ≠ [] → StoredKey.ofContainer (bs ++ more) = .error .container) ∧
    (∀ (b : Bootstrapper) (w : World) (bs : Octets) (c : Certificate),
      Certificate.ofDer bs = .ok c →
      (b.locator.prepare w.files).HoldsTorn b.certificateAt bs →
      ∃ cause, (b.load w).1 = .error (.undecodable b.certificateAt cause)) ∧
    (∀ (b : Bootstrapper) (w : World) (bs : Octets) (k : StoredKey),
      StoredKey.ofContainer bs = .ok k →
      (b.locator.prepare w.files).HoldsTorn b.keyAt bs →
      ∃ e, (b.load w).1 = .error e ∧
        ((b.locator.prepare w.files).readCertificate b.certificateAt = .error e ∨
          e = .undecodable b.keyAt .container)) ∧
    (∀ (l : Locator) (p : Path) (bs : Octets) (before after : FileSystem),
      RestrictedWrite.Interrupted p bs before after → (l.prepare after).HoldsTorn p bs) := by
  refine ⟨fun bs c hc => ⟨?_, fun more hmore => Certificate.ofDer_append hc hmore⟩,
    fun bs k hk => ⟨fun front hfront hne => ?_, fun more hmore => ?_⟩,
    fun b w bs c hc h => load_of_tornCertificate hc h, fun b w bs k hk h => load_of_tornKey hk h,
    fun l p bs before after h => h.holdsTorn.prepare l⟩
  · rintro front ⟨more, rfl⟩ hne
    exact Certificate.ofDer_of_cut hc fun hnil => hne (by rw [hnil, List.append_nil])
  · exact StoredKey.ofContainer_of_torn hk ⟨hne, .inl hfront⟩
  · exact StoredKey.ofContainer_of_torn hk (Octets.torn_append hmore)

/-- The world in which the storage directory holds one file. -/
def oneFile (name : String) (contents : Octets) : World :=
  { World.untouched with
    files := ⟨[(["store"], .directory 0o700), (["store", name], .file 0o600 contents)], []⟩ }

/-- The files of a minted authority with the last octet cut off, with an octet behind them, and with
    nothing in them yet. -/
theorem torn_detected_minted : ∃ a w', inStore.bootstrap World.untouched = (.ok a, w') ∧
    Certificate.ofDer a.certificate.der.dropLast = .error .certificate ∧
    Certificate.ofDer (a.certificate.der ++ [0]) = .error (.trailingData 1) ∧
    StoredKey.ofContainer a.privateKey.container.dropLast = .error .container ∧
    StoredKey.ofContainer (a.privateKey.container ++ [0]) = .error .container ∧
    (∃ cause, (inStore.load (oneFile "ca.der" (a.certificate.der ++ [0]))).1
      = .error (.undecodable "/store/ca.der" cause)) ∧
    (∃ e, (inStore.load (oneFile "caKey.der" (a.privateKey.container ++ [0]))).1 = .error e) ∧
    FileSystem.HoldsTorn (oneFile "ca.der" []).files "/store/ca.der" a.certificate.der := by
  obtain ⟨a, w', h, -⟩ := bootstrap_inStore
  obtain ⟨-, hfound⟩ := found_of_bootstrap wellFormed_untouched World.isFresh_untouched
    places_inStore.pathsApart h (.refl inStore) fun _ => .inl rfl
  obtain ⟨hcertificate, hkey, -⟩ := found_eq_ok_iff.mp hfound
  obtain ⟨der, -, hc⟩ := FileSystem.readCertificate_eq_ok_iff.mp hcertificate
  obtain ⟨container, -, hk⟩ := FileSystem.readPrivateKey_eq_ok_iff.mp hkey
  obtain rfl := Certificate.der_of_ofDer hc
  obtain rfl := (StoredKey.ofContainer_eq_ok_iff.mp hk).2
  have hcne : a.certificate.der ≠ [] := fun hnil => by
    rw [hnil] at hc
    cases hc
  have hkne : a.privateKey.container ≠ [] := fun hnil => by
    rw [hnil] at hk
    cases hk
  have hcut {bs : Octets} (hne : bs ≠ []) : bs.dropLast ≠ bs := fun heq => by
    have hlen := congrArg List.length heq
    have hpos := List.length_pos_iff.mpr hne
    rw [List.length_dropLast] at hlen
    omega
  obtain ⟨hcertificates, hkeys, hloadCertificate, hloadKey, hinterrupted⟩ := torn_detected
  refine ⟨a, w', h, (hcertificates _ _ hc).1 _ (List.dropLast_prefix _) (hcut hcne),
    (hcertificates _ _ hc).2 [0] (by simp), (hkeys _ _ hk).1 _ (List.dropLast_prefix _) (hcut hkne),
    (hkeys _ _ hk).2 [0] (by simp), hloadCertificate inStore _ _ _ hc ?_, ?_, ?_⟩
  · exact ⟨_, rfl, Octets.torn_append (by simp)⟩
  · obtain ⟨e, he, -⟩ := hloadKey inStore (oneFile "caKey.der" (a.privateKey.container ++ [0]))
      _ _ hk ⟨_, rfl, Octets.torn_append (by simp)⟩
    exact ⟨e, he⟩
  · exact hinterrupted inStore.locator "/store/ca.der" a.certificate.der
      ⟨[(["store"], .directory 0o700)], []⟩ (oneFile "ca.der" []).files
      ⟨[.restrict], _, by decide, rfl, rfl, List.nil_prefix, hcne.symm⟩

end Bootstrapper

end RootAuthority
