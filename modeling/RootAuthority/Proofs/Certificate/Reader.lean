import RootAuthority.Certificate.Reader
import RootAuthority.Certificate.Template
import RootAuthority.Proofs.Certificate.Extension
import RootAuthority.Proofs.Certificate.Name
import RootAuthority.Proofs.Certificate.Validity

/-!
# A certificate that was written is read back

* `Certificate.ofDer_encodeCertificate`: the octets made of a template's signed part and a signature
  read as the certificate that the template stands for (`Template.certificate`), if their length
  fits 64 bits.
* `Certificate.eq_of_ofDer_encodeCertificate`: whenever such octets are read at all, it is as that
  certificate, so the bound need not be known beforehand.

The parts are read one after the other; each lemma of section 1 says how one of them is read in
front of whatever follows it.
-/

namespace RootAuthority

open Der

/-- The algorithm of signatures as it is read. -/
def Algorithm.sha256WithRsa : Algorithm :=
  ⟨ObjectId.sha256WithRsa, some ⟨Tag.primitive Tag.null, []⟩⟩

/-- A public key as it is read. -/
def SubjectPublicKey.ofRsa (k : Rsa.PublicKey) : SubjectPublicKey where
  info := k.encodeInfo
  algorithm := ⟨ObjectId.rsaEncryption, some ⟨Tag.primitive Tag.null, []⟩⟩
  key := k.encode

/-- The ends of the validity fall in years with at most four digits. -/
def Template.YearsFit (t : Template) : Prop :=
  (CivilTime.ofSeconds t.notBefore).date.year ≤ 9999 ∧
    (CivilTime.ofSeconds t.notAfter).date.year ≤ 9999

/-- The contents of a certificate have a length that can be written. -/
def Template.ContentsFit (signed signature : Octets) : Prop :=
  [signed, Template.signatureAlgorithm, primitive Tag.bitString (0 :: signature)].flatten.length
    < 2 ^ 64

/-- **The certificate that a template stands for**, with a signature over its signed part. -/
def Template.certificate (t : Template) (signed signature : Octets) : Certificate where
  der := Template.encodeCertificate signed signature
  signed := signed
  serial := integerContent t.serial
  issuer := Template.name t.identity
  subject := Template.name t.identity
  notBefore := .utc ⟨t.notBefore, 0⟩
  notAfter := .utc ⟨t.notAfter, 0⟩
  publicKey := .ofRsa t.publicKey
  isAuthority := true
  subjectKeyId := some t.keyId
  dnsNames := t.identity.dnsNames
  signatureAlgorithm := .sha256WithRsa
  signature := signature

namespace Certificate

/-- What the octets of a file are read as: malformed, a certificate, or one with more behind it. -/
theorem ofDer_eq (bs : Octets) : ofDer bs = match read bs with
    | none => .error .certificate
    | some (p, []) => .ok (p.certificate bs p.fields.notBefore.zoned p.fields.notAfter.zoned)
    | some (_, rest) => .error (.trailingData rest.length) :=
  withoutCrash_eq_iff.mpr (decode_eq bs)

/-! ## 1. Parts -/

theorem readTagged_sequence {parts : List Octets} (hl : parts.flatten.length < 2 ^ 64)
    (rest : Octets) :
    readTagged Tag.sequence (Der.sequence parts ++ rest) = some (parts.flatten, rest) := by
  have h : readElement (Der.sequence parts ++ rest)
      = some (⟨Tag.composite Tag.sequence, parts.flatten⟩, rest) :=
    readElement_encode (e := ⟨Tag.composite Tag.sequence, parts.flatten⟩)
      (show Tag.sequence < 31 by decide) hl rest
  simp [readTagged, h, Tag.composite]

/-- A bit string of whole octets is read as these octets. -/
theorem bitString?_whole (bs : Octets) : bitString? (0 :: bs) = some bs := by
  cases bs <;> simp [bitString?]

theorem readBitString_primitive {bs : Octets} (hl : Fits (primitive Tag.bitString (0 :: bs)))
    (rest : Octets) :
    readBitString (primitive Tag.bitString (0 :: bs) ++ rest) = some (bs, rest) := by
  simp [readBitString, readElement_primitive (by decide) hl, Tag.primitive, bitString?_whole]

/-- An algorithm with parameters that say nothing. -/
theorem readAlgorithm_sequence {id : ObjectId}
    (hl : Fits (Der.sequence [primitive Tag.objectId id, primitive Tag.null []])) (rest : Octets) :
    readAlgorithm (Der.sequence [primitive Tag.objectId id, primitive Tag.null []] ++ rest)
      = some (⟨id, some ⟨Tag.primitive Tag.null, []⟩⟩, rest) := by
  have hfits : Fits (primitive Tag.objectId id) := hl.sequence_part (by simp)
  have hid := readElement_primitive (by decide) hfits (primitive Tag.null [])
  have hnull : readElement (primitive Tag.null []) = some (⟨Tag.primitive Tag.null, []⟩, []) := by
    decide
  have hne : primitive Tag.null [] ≠ [] := by decide
  rw [readAlgorithm, readTagged_sequence hl.composite_content]
  simp [hid, hnull, hne, Tag.primitive]

theorem skipVersion_encode (rest : Octets) :
    skipVersion (Element.encode ⟨Tag.context true 0, integer 2⟩ ++ rest) = some rest := by
  have hversion : readElement (integer 2) = some (⟨Tag.primitive Tag.integer, [2]⟩, []) := by decide
  have hword : Extension.isWord ⟨Tag.primitive Tag.integer, [2]⟩ = true := by decide
  have h := readElement_encode (e := ⟨Tag.context true 0, integer 2⟩) (by decide) (by decide) rest
  rw [skipVersion, h]
  simp [Tag.context, hversion, hword]

theorem readSerial_integer {n : Nat} (hl : Fits (integer n)) (rest : Octets) :
    readSerial (integer n ++ rest) = some (integerContent n, rest) := by
  have h := readElementIndefinite_primitive (show Tag.integer < 31 by decide) hl rest
  rw [readSerial, integer, h]
  simp [Tag.primitive]

theorem readValidity_sequence {t : Template} {notBefore notAfter : Octets} (hy : t.YearsFit)
    (hb : Validity.encodeTime t.notBefore = some notBefore)
    (ha : Validity.encodeTime t.notAfter = some notAfter)
    (hl : Fits (Der.sequence [notBefore, notAfter])) (rest : Octets) :
    readValidity (Der.sequence [notBefore, notAfter] ++ rest)
      = some ((.utc t.notBefore, .utc t.notAfter), rest) := by
  have h1 := Validity.readTime_encodeTime hb hy.1 notAfter
  have h2 := Validity.readTime_encodeTime ha hy.2 []
  rw [List.append_nil] at h2
  rw [readValidity, readTagged_sequence hl.composite_content]
  simp [h1, h2]

/-- **A public key is read back**, together with all octets of its information. -/
theorem readPublicKey_encodeInfo {k : Rsa.PublicKey} (hl : Fits k.encodeInfo) (rest : Octets) :
    readPublicKey (k.encodeInfo ++ rest) = some (.ofRsa k, rest) := by
  have halgorithm : Fits Rsa.PublicKey.algorithm := hl.sequence_part (by simp)
  have hbits : Fits (primitive Tag.bitString (0 :: k.encode)) := hl.sequence_part (by simp)
  have hkey := readBitString_primitive hbits []
  rw [List.append_nil] at hkey
  rw [readPublicKey, Rsa.PublicKey.encodeInfo, readTagged_sequence hl.composite_content]
  have h := readAlgorithm_sequence halgorithm (primitive Tag.bitString (0 :: k.encode))
  simp [Rsa.PublicKey.algorithm, h, hkey, SubjectPublicKey.ofRsa, Rsa.PublicKey.encodeInfo]

/-- The name of a template is read back. -/
theorem read_name {identity : Identity} (hl : Fits (Template.name identity).encode)
    (rest : Octets) :
    Name.read ((Template.name identity).encode ++ rest) = some (Template.name identity, rest) :=
  Name.read_encode (by simp [Template.name])
    (by simp [Template.name, Attribute.ofText, Tag.primitive, Tag.utf8String]) hl rest

/-- The octets after the public key do not begin with a unique identifier. -/
theorem skipUniqueId_extensions {number : Nat} {content : Octets} (hn : number ≠ 3) :
    skipUniqueId number (Element.encode ⟨Tag.context true 3, content⟩)
      = some (Element.encode ⟨Tag.context true 3, content⟩) := by
  have h := readTag_encode (e := ⟨Tag.context true 3, content⟩) (by simp [Tag.context]) []
  rw [List.append_nil] at h
  have hne : (Element.encode ⟨Tag.context true 3, content⟩).isEmpty = false := by
    simp [Element.encode]
  rw [skipUniqueId, hne, h]
  simp [Tag.context, hn.symm]

theorem readExtensions_encode {t : Template}
    (hl : Fits (Element.encode ⟨Tag.context true 3, Der.sequence t.extensions⟩)) :
    readExtensions (Element.encode ⟨Tag.context true 3, Der.sequence t.extensions⟩)
      = some (Extension.ofTemplate t) := by
  have htag := readTag_encode (e := ⟨Tag.context true 3, Der.sequence t.extensions⟩)
    (by simp [Tag.context]) []
  rw [List.append_nil, List.append_nil] at htag
  have hlength := Der.readLength_encodeLength hl.content (Der.sequence t.extensions)
  have hfits : Fits (composite Tag.sequence t.extensions) := hl.content
  have hsequence := readTagged_sequence hfits.composite_content []
  rw [List.append_nil] at hsequence
  have hne :
      (Element.encode ⟨Tag.context true 3, Der.sequence t.extensions⟩).isEmpty = false := by
    simp [Element.encode]
  rw [readExtensions, hne, htag]
  simp only [Bool.false_eq_true, if_false, Option.bind_eq_bind, Option.bind_some, hlength,
    hsequence, Extension.readAll_extensions hl.content]
  simp [Tag.context]

/-! ## 2. The whole -/

/-- The fields of the signed part of a template as they are read. -/
def Signed.ofTemplate (t : Template) : Signed where
  serial := integerContent t.serial
  issuer := Template.name t.identity
  notBefore := .utc t.notBefore
  notAfter := .utc t.notAfter
  subject := Template.name t.identity
  publicKey := .ofRsa t.publicKey
  extensions := Extension.ofTemplate t

/-- **The signed part is read back.** -/
theorem readSigned_encodeSigned {t : Template} {signed : Octets}
    (h : t.encodeSigned? = some signed) (hy : t.YearsFit) (hl : Fits signed) (rest : Octets) :
    readSigned (signed ++ rest) = some (Signed.ofTemplate t, rest) := by
  simp only [Template.encodeSigned?, Option.bind_eq_bind, Option.bind_eq_some_iff,
    Option.pure_def, Option.some.injEq] at h
  obtain ⟨notBefore, hb, notAfter, ha, rfl⟩ := h
  have hserial : Fits (integer t.serial) := hl.sequence_part (by simp)
  have halgorithm : Fits Template.signatureAlgorithm := hl.sequence_part (by simp)
  have hname : Fits (Template.name t.identity).encode := hl.sequence_part (by simp)
  have hvalidity : Fits (Der.sequence [notBefore, notAfter]) := hl.sequence_part (by simp)
  have hkey : Fits t.publicKey.encodeInfo := hl.sequence_part (by simp)
  have hextensions : Fits (Element.encode ⟨Tag.context true 3, Der.sequence t.extensions⟩) :=
    hl.sequence_part (by simp)
  rw [readSigned, readTagged_sequence hl.composite_content]
  simp only [List.flatten_cons, List.flatten_nil, List.append_nil,
    Option.bind_eq_bind, Option.bind_some, skipVersion_encode, readSerial_integer hserial,
    readAlgorithm_sequence halgorithm, Template.signatureAlgorithm, read_name hname,
    readValidity_sequence hy hb ha hvalidity, readPublicKey_encodeInfo hkey,
    skipUniqueId_extensions (show 1 ≠ 3 by decide), skipUniqueId_extensions (show 2 ≠ 3 by decide),
    readExtensions_encode hextensions, Option.pure_def]
  rfl

theorem fits_extensions {t : Template} {signed : Octets} (h : t.encodeSigned? = some signed)
    (hl : Fits signed) : Fits (Der.sequence t.extensions) := by
  simp only [Template.encodeSigned?, Option.bind_eq_bind, Option.bind_eq_some_iff,
    Option.pure_def, Option.some.injEq] at h
  obtain ⟨notBefore, -, notAfter, -, rfl⟩ := h
  have h3 : Fits (Element.encode ⟨Tag.context true 3, Der.sequence t.extensions⟩) :=
    hl.sequence_part (by simp)
  exact h3.content

/-- Of what a reader takes in front of further octets, exactly these are kept. -/
theorem withOctets_append {α : Type} {reader : Octets → Option (α × Octets)} {bs rest : Octets}
    {a : α} (h : reader (bs ++ rest) = some (a, rest)) :
    withOctets reader (bs ++ rest) = some (bs, a, rest) := by
  simp [withOctets, h]

/-- **A certificate is read back as its template says**, and the signed part is cut out as it was
    signed. -/
theorem ofDer_encodeCertificate {t : Template} {signed signature : Octets}
    (h : t.encodeSigned? = some signed) (hy : t.YearsFit)
    (hl : Template.ContentsFit signed signature) :
    ofDer (Template.encodeCertificate signed signature) = .ok (t.certificate signed signature) := by
  have hpart {p : Octets} := Fits.of_mem hl (p := p)
  have hsigned := readSigned_encodeSigned h hy (hpart (by simp))
    (Template.signatureAlgorithm ++ primitive Tag.bitString (0 :: signature))
  have halgorithm : readAlgorithm
      (Template.signatureAlgorithm ++ primitive Tag.bitString (0 :: signature))
      = some (.sha256WithRsa, primitive Tag.bitString (0 :: signature)) :=
    readAlgorithm_sequence (hpart (by simp [Template.signatureAlgorithm])) _
  have hbits : Fits (primitive Tag.bitString (0 :: signature)) := hpart (by simp)
  have hsignature := readBitString_primitive hbits []
  have hsequence := readTagged_sequence hl []
  rw [List.append_nil] at hsignature hsequence
  have hextensions := fits_extensions h (hpart (by simp))
  have hread : read (Template.encodeCertificate signed signature)
      = some (⟨signed, .ofTemplate t, .sha256WithRsa, signature⟩, []) := by
    rw [read, Template.encodeCertificate, hsequence]
    simp only [List.flatten_cons, List.flatten_nil, List.append_nil, Option.bind_eq_bind,
      Option.bind_some, withOctets_append hsigned, halgorithm, hsignature, Option.pure_def]
  rw [ofDer_eq, hread]
  simp only [Parts.certificate, Signed.ofTemplate, LocalTime.zoned_utc,
    Extension.marksAuthority_ofTemplate, Extension.subjectKeyId?_ofTemplate hextensions,
    Extension.allDnsNames_ofTemplate hextensions]
  rfl

/-- **A file holds a certificate** if it is read with nothing left over. -/
theorem ofDer_eq_ok_iff {bs : Octets} {c : Certificate} : ofDer bs = .ok c ↔
    ∃ p, read bs = some (p, []) ∧
      p.certificate bs p.fields.notBefore.zoned p.fields.notAfter.zoned = c := by
  rw [ofDer_eq]
  split
  · next hread =>
    rw [hread]
    exact ⟨nofun, fun ⟨_, h, _⟩ => nomatch h⟩
  · next p hread =>
    rw [hread]
    constructor
    · intro h
      exact ⟨p, rfl, Except.ok.inj h⟩
    · intro h
      rcases h with ⟨p', hp, rfl⟩
      obtain ⟨rfl, -⟩ := Prod.mk.inj (Option.some.inj hp)
      rfl
  · next hrest hread =>
    rw [hread]
    refine ⟨nofun, fun ⟨_, h, _⟩ => ?_⟩
    exact (hrest (Prod.mk.inj (Option.some.inj h)).2).elim

/-- A certificate that was read keeps the octets it was read from. -/
theorem der_of_ofDer {bs : Octets} {c : Certificate} (h : ofDer bs = .ok c) : c.der = bs := by
  obtain ⟨p, -, rfl⟩ := ofDer_eq_ok_iff.mp h
  rfl

/-- An element with another tag is not the one asked for. -/
theorem readTagged_other {number : Nat} {b : UInt8} (hshort : b.toNat % 32 ≠ 31)
    (hother : b.toNat % 32 ≠ number) (bs : Octets) : readTagged number (b :: bs) = none := by
  simp only [readTagged, readElement, readTag, if_neg hshort, Option.bind_eq_bind,
    Option.bind_some, Option.bind_eq_none_iff]
  rintro ⟨e, rest⟩ he
  obtain ⟨⟨field, bs₁⟩, -, he⟩ := Option.bind_eq_some_iff.mp he
  cases field with
  | indefinite => cases he
  | definite n =>
    obtain ⟨⟨content, rest'⟩, -, he⟩ := Option.bind_eq_some_iff.mp he
    obtain ⟨rfl, rfl⟩ := Prod.mk.inj (Option.some.inj he)
    exact if_neg hother

/-- A sequence that is read as a certificate has contents whose length can be written. -/
theorem length_lt_of_ofDer {parts : List Octets} {c : Certificate}
    (h : ofDer (Der.sequence parts) = .ok c) : parts.flatten.length < 2 ^ 64 := by
  obtain ⟨p, hread, -⟩ := ofDer_eq_ok_iff.mp h
  simp only [read, readTagged, Option.bind_eq_bind, Option.bind_eq_some_iff, Option.pure_def,
    Option.some.injEq, Prod.mk.injEq] at hread
  obtain ⟨⟨content, rest⟩, ⟨⟨e, rest'⟩, he, hif⟩, _, -, _, -, _, -, -, hend⟩ := hread
  split at hif
  · obtain ⟨-, hrest⟩ := Prod.mk.inj (Option.some.inj hif)
    simp only at hrest hend
    rw [hrest, hend] at he
    exact content_lt_of_readElement (e := ⟨Tag.composite Tag.sequence, parts.flatten⟩)
      (show Tag.sequence < 31 by decide) he
  · cases hif

/-- **Octets made of a template, if they are read at all, are read as its certificate.** -/
theorem eq_of_ofDer_encodeCertificate {t : Template} {signed signature : Octets} {c : Certificate}
    (h : t.encodeSigned? = some signed) (hy : t.YearsFit)
    (hc : ofDer (Template.encodeCertificate signed signature) = .ok c) :
    c = t.certificate signed signature := by
  rw [ofDer_encodeCertificate h hy (length_lt_of_ofDer hc)] at hc
  exact (Except.ok.inj hc).symm

end Certificate

end RootAuthority
