import RootAuthority.Certificate.Name
import RootAuthority.Certificate.Validity

/-!
# Certificates, as far as this library looks at them

A certificate is kept together with the octets it was read from. Besides the fields that describe
its holder it keeps the octets that were signed, the signature and its algorithm, so that it can be
checked against its own public key.
-/

namespace RootAuthority

open Der

/-- An algorithm and its parameters, if it has any. -/
structure Algorithm where
  id : ObjectId
  parameters? : Option Element
deriving DecidableEq, Repr

/-- A public key as certificates carry it. -/
structure SubjectPublicKey where
  /-- The octets of the whole key information. -/
  info : Octets
  algorithm : Algorithm
  /-- The key itself, in the encoding of its algorithm. -/
  key : Octets
deriving DecidableEq, Repr

/-- A certificate. -/
structure Certificate where
  /-- The octets of the whole certificate. -/
  der : Octets
  /-- The octets over which the signature was made. -/
  signed : Octets
  /-- The contents of the serial number. -/
  serial : Octets
  issuer : Name
  subject : Name
  notBefore : ZonedTime
  notAfter : ZonedTime
  publicKey : SubjectPublicKey
  /-- The basic constraints mark the holder as an authority. -/
  isAuthority : Bool
  subjectKeyId : Option Octets
  dnsNames : List String
  signatureAlgorithm : Algorithm
  signature : Octets
deriving DecidableEq, Repr

namespace Certificate

/-- **The serial number**, if it fits 64 bits. -/
def serialNumber? (c : Certificate) : Option Nat :=
  let digits := c.serial.dropWhile (· = 0)
  if 8 < digits.length then none else some (Octets.toWord digits).toNat

/-- The common name of the holder. -/
def commonName? (c : Certificate) : Option String := c.subject.firstText? ObjectId.commonName

/-- The organization of the holder. -/
def organization? (c : Certificate) : Option String :=
  c.subject.firstText? ObjectId.organizationName

/-- The two ends of the validity in one line. -/
def validityText (c : Certificate) : String := c.notBefore.display ++ " / " ++ c.notAfter.display

end Certificate

end RootAuthority
