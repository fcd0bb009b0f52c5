import RootAuthority.Certificate.Signature
import RootAuthority.Octets.Base64
import RootAuthority.Rsa.SigningKey

/-!
# Root authorities

A root authority is a certificate, the private key it was issued for and the note whether both were
found on disk or made just now. The key is kept together with the octets of its container.
-/

namespace RootAuthority

/-- A private key and the container that it was read from or written to. -/
structure StoredKey where
  key : Rsa.PrivateKey
  container : Octets
deriving DecidableEq, Repr

namespace StoredKey

/-- The key in a container. -/
def ofContainer (container : Octets) : Except DecodeError StoredKey :=
  (Rsa.PrivateKey.ofContainer container).map (⟨·, container⟩)

/-- A key in a container of its own. -/
def ofKey (key : Rsa.PrivateKey) : StoredKey := ⟨key, key.encodeContainer⟩

/-- A key in one line, without its secret parts. -/
def display (k : StoredKey) : String :=
  "CaPrivateKey \x7b bits: " ++ toString k.key.bits ++ ", .. \x7d"

end StoredKey

/-- Where an authority comes from. -/
inductive Origin
  /-- Found on disk and left as it was. -/
  | recovered
  /-- Freshly made and written to disk. -/
  | generated
deriving DecidableEq, Repr

namespace Origin

/-- The name of an origin. -/
def name : Origin → String
  | recovered => "Recovered"
  | generated => "Generated"

end Origin

/-- A root certificate with its private key. -/
structure Authority where
  certificate : Certificate
  privateKey : StoredKey
  origin : Origin
deriving DecidableEq, Repr

namespace Authority

/-- **The certificate carries the public half of the private key.** -/
def keyMatches (a : Authority) : Bool :=
  a.privateKey.key.publicKey.encode = a.certificate.publicKey.key

/-- The SHA-256 digest of the certificate in hexadecimal. -/
def fingerprint (a : Authority) : String := (Digest.sha256 a.certificate.der).toHex

/-- The certificate in its textual form. -/
def pem (a : Authority) : String := Pem.certificateText a.certificate.der

/-- **The key that certificates below this one are signed with**, if it can be signed with. -/
def signingKey? (a : Authority) : Option Rsa.SigningKey :=
  Rsa.SigningKey.ofContainer? a.privateKey.container

end Authority

end RootAuthority
