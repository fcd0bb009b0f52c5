import RootAuthority.Certificate.Extension
import RootAuthority.DecodeError

/-!
# Reading certificates

`Certificate.decode` reads a certificate from the octets of a file. The outer element fixes how far
the certificate reaches: less is malformed, more is reported as trailing data. Inside, elements are
taken in order, and what a sequence holds after the parts that are asked for is not looked at. Tags
are compared by their numbers; their classes count only where a number stands for different things.

When all has been read, the two times of the validity become points in time, which is a crash for
dates that do not exist. Reading lets none of them through, so there is a result for all octets
(`Certificate.decode_completes`): it is `Certificate.ofDer`.
-/

namespace RootAuthority

open Der

namespace Certificate

/-- The element in front, if its tag has the given number. -/
def readTagged (number : Nat) (bs : Octets) : Option (Octets × Octets) := do
  let (e, rest) ← readElement bs
  if e.tag.number = number then return (e.content, rest) else none

/-- Runs a reader and also gives the octets that it read. -/
def withOctets {α : Type} (reader : Octets → Option (α × Octets)) (bs : Octets) :
    Option (Octets × α × Octets) := do
  let (a, rest) ← reader bs
  return (bs.take (bs.length - rest.length), a, rest)

/-! ## 1. Parts -/

/-- The bits of a last octet that are zero, counted from the low end. -/
def trailingZeros (b : UInt8) : Nat :=
  if b = 0 then 8
  else ((List.range 8).find? b.toNat.testBit).getD 8

/-- The octets of a bit string. The unused bits at its end, which its first octet counts, are
    zero. -/
def bitString? : Octets → Option Octets
  | [] => none
  | [unused] => if unused = 0 then some [] else none
  | unused :: b :: bs =>
    if unused.toNat ≤ trailingZeros ((b :: bs).getLastD 0) then some (b :: bs) else none

/-- Reads a bit string. -/
def readBitString (bs : Octets) : Option (Octets × Octets) := do
  let (e, rest) ← readElement bs
  if e.tag.number = Tag.bitString ∧ e.tag.constructed = false then
    return (← bitString? e.content, rest)
  else none

/-- Reads an algorithm: a sequence of an identifier and optional parameters. -/
def readAlgorithm (bs : Octets) : Option (Algorithm × Octets) := do
  let (content, rest) ← readTagged Tag.sequence bs
  let (id, inner) ← readElement content
  if id.tag.constructed then none
  else if inner.isEmpty then return (⟨id.content, none⟩, rest)
  else
    let (parameters, _) ← readElement inner
    return (⟨id.content, some parameters⟩, rest)

/-- Skips the version, an integer of at most 32 bits in an element of its own, if it is there. -/
def skipVersion (bs : Octets) : Option Octets := do
  let (e, rest) ← readElement bs
  if e.tag.number ≠ 0 then return bs
  else if e.tag.cls ≠ .contextSpecific then none
  else
    let (version, _) ← readElement e.content
    if Extension.isWord version then return rest else none

/-- Reads the serial number and gives its contents. -/
def readSerial (bs : Octets) : Option (Octets × Octets) := do
  let (e, rest) ← readElementIndefinite bs
  if e.tag.number = Tag.integer then return (e.content, rest) else none

/-- Reads the two ends of the validity. -/
def readValidity (bs : Octets) : Option ((LocalTime × LocalTime) × Octets) := do
  let (content, rest) ← readTagged Tag.sequence bs
  let (notBefore, inner) ← Validity.readTime content
  let (notAfter, _) ← Validity.readTime inner
  return ((notBefore, notAfter), rest)

/-- Reads a public key; its octets end with the key, whatever the sequence holds after that. -/
def readPublicKey (bs : Octets) : Option (SubjectPublicKey × Octets) := do
  let (content, rest) ← readTagged Tag.sequence bs
  let (algorithm, inner) ← readAlgorithm content
  let (key, unread) ← readBitString inner
  return (⟨bs.take (bs.length - rest.length - unread.length), algorithm, key⟩, rest)

/-- Skips a unique identifier with the given tag number, if it is there. -/
def skipUniqueId (number : Nat) (bs : Octets) : Option Octets :=
  if bs.isEmpty then some []
  else do
    let (tag, _) ← readTag bs
    if tag.number ≠ number then return bs
    else
      let (e, rest) ← readElement bs
      if tag.cls ≠ .contextSpecific ∨ e.content.isEmpty then none else return rest

/-- Reads the extensions: a tag and a length, and then one sequence that takes all that is left,
    whatever the length says. -/
def readExtensions (bs : Octets) : Option (List Extension) :=
  if bs.isEmpty then some []
  else do
    let (tag, inner) ← readTag bs
    let (length, inner) ← readLength inner
    if tag.number ≠ 3 ∨ length = .indefinite then none
    else
      let (content, rest) ← readTagged Tag.sequence inner
      if rest.isEmpty then Extension.readAll Extension.read content.length content else none

/-! ## 2. The signed part -/

/-- The fields of the signed part. -/
structure Signed where
  serial : Octets
  issuer : Name
  notBefore : LocalTime
  notAfter : LocalTime
  subject : Name
  publicKey : SubjectPublicKey
  extensions : List Extension

/-- Reads the signed part. -/
def readSigned (bs : Octets) : Option (Signed × Octets) := do
  let (content, rest) ← readTagged Tag.sequence bs
  let inner ← skipVersion content
  let (serial, inner) ← readSerial inner
  let (_, inner) ← readAlgorithm inner
  let (issuer, inner) ← Name.read inner
  let ((notBefore, notAfter), inner) ← readValidity inner
  let (subject, inner) ← Name.read inner
  let (publicKey, inner) ← readPublicKey inner
  let inner ← skipUniqueId 1 inner
  let inner ← skipUniqueId 2 inner
  let extensions ← readExtensions inner
  return (⟨serial, issuer, notBefore, notAfter, subject, publicKey, extensions⟩, rest)

/-! ## 3. The whole -/

/-- A certificate taken apart, its validity still as it is written down. -/
structure Parts where
  /-- The octets over which the signature was made. -/
  signed : Octets
  fields : Signed
  algorithm : Algorithm
  signature : Octets

/-- Takes a certificate apart and gives what follows it. -/
def read (bs : Octets) : Option (Parts × Octets) := do
  let (content, rest) ← readTagged Tag.sequence bs
  let (signed, fields, inner) ← withOctets readSigned content
  let (algorithm, inner) ← readAlgorithm inner
  let (signature, _) ← readBitString inner
  return (⟨signed, fields, algorithm, signature⟩, rest)

/-- The certificate with some parts, valid between two points in time. -/
def Parts.certificate (p : Parts) (der : Octets) (notBefore notAfter : ZonedTime) :
    Certificate where
  der := der
  signed := p.signed
  serial := p.fields.serial
  issuer := p.fields.issuer
  subject := p.fields.subject
  notBefore := notBefore
  notAfter := notAfter
  publicKey := p.fields.publicKey
  isAuthority := Extension.marksAuthority p.fields.extensions
  subjectKeyId := Extension.subjectKeyId? p.fields.extensions
  dnsNames := Extension.allDnsNames p.fields.extensions
  signatureAlgorithm := p.algorithm
  signature := p.signature

/-- **Reads the certificate that the octets of a file hold.** -/
def decode (bs : Octets) : Except Crash (Except DecodeError Certificate) :=
  match read bs with
  | none => .ok (.error .certificate)
  | some (p, []) => do
    let notBefore ← p.fields.notBefore.toZoned
    let notAfter ← p.fields.notAfter.toZoned
    return .ok (p.certificate bs notBefore notAfter)
  | some (_, rest) => .ok (.error (.trailingData rest.length))

/-! ## 4. Every reading completes -/

theorem exists_of_readValidity {bs rest : Octets} {notBefore notAfter : LocalTime}
    (h : readValidity bs = some ((notBefore, notAfter), rest)) :
    notBefore.Exists ∧ notAfter.Exists := by
  obtain ⟨⟨content, rest'⟩, -, h⟩ := Option.bind_eq_some_iff.mp h
  obtain ⟨⟨first, inner⟩, hfirst, h⟩ := Option.bind_eq_some_iff.mp h
  obtain ⟨⟨last, inner'⟩, hlast, h⟩ := Option.bind_eq_some_iff.mp h
  obtain ⟨htimes, -⟩ := Prod.mk.inj (Option.some.inj h)
  obtain ⟨rfl, rfl⟩ := Prod.mk.inj htimes
  exact ⟨Validity.exists_of_readTime hfirst, Validity.exists_of_readTime hlast⟩

theorem exists_of_readSigned {bs rest : Octets} {fields : Signed}
    (h : readSigned bs = some (fields, rest)) : fields.notBefore.Exists ∧ fields.notAfter.Exists := by
  obtain ⟨⟨content, rest'⟩, -, h⟩ := Option.bind_eq_some_iff.mp h
  obtain ⟨inner₁, -, h⟩ := Option.bind_eq_some_iff.mp h
  obtain ⟨⟨serial, inner₂⟩, -, h⟩ := Option.bind_eq_some_iff.mp h
  obtain ⟨⟨algorithm, inner₃⟩, -, h⟩ := Option.bind_eq_some_iff.mp h
  obtain ⟨⟨issuer, inner₄⟩, -, h⟩ := Option.bind_eq_some_iff.mp h
  obtain ⟨⟨⟨notBefore, notAfter⟩, inner₅⟩, hvalidity, h⟩ := Option.bind_eq_some_iff.mp h
  obtain ⟨⟨subject, inner₆⟩, -, h⟩ := Option.bind_eq_some_iff.mp h
  obtain ⟨⟨publicKey, inner₇⟩, -, h⟩ := Option.bind_eq_some_iff.mp h
  obtain ⟨inner₈, -, h⟩ := Option.bind_eq_some_iff.mp h
  obtain ⟨inner₉, -, h⟩ := Option.bind_eq_some_iff.mp h
  obtain ⟨extensions, -, h⟩ := Option.bind_eq_some_iff.mp h
  obtain ⟨rfl, -⟩ := Prod.mk.inj (Option.some.inj h)
  exact exists_of_readValidity hvalidity

/-- **The validity of a certificate that was read exists.** -/
theorem exists_of_read {bs rest : Octets} {p : Parts} (h : read bs = some (p, rest)) :
    p.fields.notBefore.Exists ∧ p.fields.notAfter.Exists := by
  obtain ⟨⟨content, rest'⟩, -, h⟩ := Option.bind_eq_some_iff.mp h
  obtain ⟨⟨signed, fields, inner⟩, hsigned, h⟩ := Option.bind_eq_some_iff.mp h
  obtain ⟨⟨algorithm, inner'⟩, -, h⟩ := Option.bind_eq_some_iff.mp h
  obtain ⟨⟨signature, inner''⟩, -, h⟩ := Option.bind_eq_some_iff.mp h
  obtain ⟨rfl, -⟩ := Prod.mk.inj (Option.some.inj h)
  obtain ⟨⟨fields', inner⟩, hfields, hsigned⟩ := Option.bind_eq_some_iff.mp hsigned
  obtain ⟨-, hsame⟩ := Prod.mk.inj (Option.some.inj hsigned)
  obtain ⟨rfl, -⟩ := Prod.mk.inj hsame
  exact exists_of_readSigned hfields

/-- What reading gives, whatever the octets are. -/
theorem decode_eq (bs : Octets) : decode bs = .ok (match read bs with
    | none => .error .certificate
    | some (p, []) => .ok (p.certificate bs p.fields.notBefore.zoned p.fields.notAfter.zoned)
    | some (_, rest) => .error (.trailingData rest.length)) := by
  unfold decode
  split
  · rfl
  · next p hread =>
    obtain ⟨hbefore, hafter⟩ := exists_of_read hread
    rw [LocalTime.toZoned_eq hbefore, LocalTime.toZoned_eq hafter]
    rfl
  · rfl

/-- **No octets make reading a certificate crash.** -/
theorem decode_completes (bs : Octets) : ∃ result, decode bs = .ok result := ⟨_, decode_eq bs⟩

/-- **The certificate that the octets of a file hold.** -/
def ofDer (bs : Octets) : Except DecodeError Certificate :=
  withoutCrash (decode bs) (decode_completes bs)

end Certificate

end RootAuthority
