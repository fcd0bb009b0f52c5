import RootAuthority.Certificate.Basic
import RootAuthority.Identity
import RootAuthority.Rsa.PublicKey

/-!
# Writing root certificates

A template holds what a root certificate says: serial number, holder, validity and public key. The
signed part is written from it (`Template.encodeSigned?`), and together with a signature over these
octets it makes the certificate (`Template.encodeCertificate`).

A root certificate names its holder as its issuer and carries five extensions: the DNS names of the
holder, if there are any; the uses of the key; the purpose of serving; the key identifier; and the
mark of an authority.
-/

namespace RootAuthority

open Der

/-- What a root certificate says. -/
structure Template where
  serial : Nat
  identity : Identity
  /-- The ends of the validity, in seconds since 1970. -/
  notBefore : Int
  notAfter : Int
  publicKey : Rsa.PublicKey
  keyId : Octets

namespace Template

/-! ## 1. Parts -/

/-- The name of the holder: common name and organization, each a level of its own. -/
def name (identity : Identity) : Name :=
  [[Attribute.ofText ObjectId.commonName identity.commonName],
   [Attribute.ofText ObjectId.organizationName identity.organization]]

/-- The algorithm that certificates are signed with. -/
def signatureAlgorithm : Octets :=
  sequence [primitive Tag.objectId ObjectId.sha256WithRsa, primitive Tag.null []]

/-- An extension, marked if it is critical. -/
def extension (kind : ObjectId) (critical : Bool) (value : Octets) : Octets :=
  sequence ([primitive Tag.objectId kind]
    ++ (if critical then [primitive Tag.boolean [0xff]] else [])
    ++ [primitive Tag.octetString value])

/-- A DNS name among alternative names. -/
def dnsName (name : String) : Octets := Element.encode ⟨Tag.context false 2, Octets.ofText name⟩

/-- The alternative names, left out if there are none. -/
def alternativeNames (names : List String) : List Octets :=
  if names.isEmpty then []
  else [extension ObjectId.subjectAlternativeName false (sequence (names.map dnsName))]

/-- The uses of the key: signing certificates, enciphering keys and signing. -/
def keyUses : Octets := primitive Tag.bitString [2, 0xa4]

/-- The extensions in order. -/
def extensions (t : Template) : List Octets :=
  alternativeNames t.identity.dnsNames ++
  [extension ObjectId.keyUsage true keyUses,
   extension ObjectId.extendedKeyUsage false
     (sequence [primitive Tag.objectId ObjectId.serverAuthentication]),
   extension ObjectId.subjectKeyIdentifier false (primitive Tag.octetString t.keyId),
   extension ObjectId.basicConstraints true (sequence [primitive Tag.boolean [0xff]])]

/-! ## 2. The whole -/

/-- **The signed part of the certificate**; a time before year 0 cannot be written. -/
def encodeSigned? (t : Template) : Option Octets := do
  let notBefore ← Validity.encodeTime t.notBefore
  let notAfter ← Validity.encodeTime t.notAfter
  return sequence
    [Element.encode ⟨Tag.context true 0, integer 2⟩,
     integer t.serial,
     signatureAlgorithm,
     (name t.identity).encode,
     sequence [notBefore, notAfter],
     (name t.identity).encode,
     t.publicKey.encodeInfo,
     Element.encode ⟨Tag.context true 3, sequence t.extensions⟩]

/-- **The certificate** made of a signed part and the signature over it. -/
def encodeCertificate (signed signature : Octets) : Octets :=
  sequence [signed, signatureAlgorithm, primitive Tag.bitString (0 :: signature)]

end Template

end RootAuthority
