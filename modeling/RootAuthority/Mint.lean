import RootAuthority.Authority
import RootAuthority.Certificate.Template
import RootAuthority.Crash
import RootAuthority.Storage.FileSystem

/-!
# Minting root authorities

`Authority.mint` makes a certificate for a key: it says what an identity asks for, is valid from one
calendar year before to one year after the moment of minting, and is signed with the key itself.
What was written is read back, so a minted authority holds the certificate that any reader will see.

A failure is either refused with a reason, or a crash: the clock shows a time that no calendar year
from -9999 to 9999 holds, the day after the last of them is needed, or a year before year 0 would
have to be written.
-/

namespace RootAuthority

/-- Why minting or storing an authority was refused. -/
inductive MintError
  | serialsExhausted
  | keysExhausted
  /-- A DNS name is not ASCII. -/
  | dnsName (name : String)
  /-- One end of the validity falls in no year that can be written. -/
  | windowOutOfRange
  /-- The certificate as written cannot be read back. -/
  | unreadable (cause : DecodeError)
  /-- The key cannot be signed with. -/
  | signing
  /-- A file could not be written. -/
  | persist (path : Path) (cause : FileError)
deriving DecidableEq, Repr

namespace MintError

/-- The text of a minting error. -/
def message : MintError → String
  | serialsExhausted => "serial numbers exhausted"
  | keysExhausted => "failed to generate RSA key pair: no primes left"
  | dnsName name => "failed to build certificate template: invalid DNS name: " ++ name
  | windowOutOfRange =>
    "failed to build certificate template: validity window out of range: year was not in range"
  | unreadable cause => "failed to build certificate template: " ++ cause.message
  | signing => "failed to sign certificate: key refused"
  | persist path cause => "failed to persist " ++ path ++ ": " ++ cause.message

end MintError

/-- How minting fails. -/
inductive MintFailure
  | refused (cause : MintError)
  | crashed (cause : Crash)
deriving DecidableEq, Repr

namespace MintFailure

/-- The failure that a failed shift of years leads to. -/
def ofShift : Instant.ShiftError → MintFailure
  | .yearOutOfRange => refused .windowOutOfRange
  | .noNextDay => crashed .noNextDay

end MintFailure

/-- The text is ASCII. -/
def isAscii (s : String) : Bool := s.toList.all fun c => c.toNat < 128

namespace Template

/-- **The template of a root certificate** minted at an instant. -/
def mintedAt (identity : Identity) (serial : Nat) (key : Rsa.PublicKey) (now : Instant) :
    Except MintFailure Template := do
  if ¬ now.Representable then throw (.crashed .clockOutOfRange)
  if let some name := identity.dnsNames.find? (!isAscii ·) then throw (.refused (.dnsName name))
  let notBefore ← (now.shiftYears (-1)).mapError .ofShift
  let notAfter ← (now.shiftYears 1).mapError .ofShift
  return ⟨serial, identity, notBefore.secs, notAfter.secs, key, Digest.sha1 key.encodeInfo⟩

end Template

namespace Authority

/-- **Mints an authority** for a key. -/
def mint (identity : Identity) (serial : Nat) (key : Rsa.PrivateKey) (now : Instant) :
    Except MintFailure Authority := do
  let stored := StoredKey.ofKey key
  let template ← Template.mintedAt identity serial key.publicKey now
  let some signer := Rsa.SigningKey.ofContainer? stored.container | throw (.refused .signing)
  let some signed := template.encodeSigned? | throw (.crashed .yearBeforeZero)
  let some signature := signer.sign? signed | throw (.refused .signing)
  match Certificate.ofDer (Template.encodeCertificate signed signature) with
  | .ok certificate => return ⟨certificate, stored, .generated⟩
  | .error cause => throw (.refused (.unreadable cause))

end Authority

end RootAuthority
