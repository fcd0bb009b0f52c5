import RootAuthority.Der.ObjectId

/-!
# Why a certificate or a key could not be decoded
-/

namespace RootAuthority

/-- The cause of a failed decoding. -/
inductive DecodeError
  /-- Not a certificate. -/
  | certificate
  /-- A certificate with so many octets after it. -/
  | trailingData (count : Nat)
  /-- Not a container for a private key. -/
  | container
  /-- A private key for another algorithm, shown by its identifier. -/
  | notRsa (algorithm : String)
  /-- The parts of an RSA key are malformed or do not belong together. -/
  | rsa
deriving DecidableEq, Repr

namespace DecodeError

/-- The text of a decoding error. -/
def message : DecodeError → String
  | certificate => "malformed X.509 certificate: unexpected encoding"
  | trailingData count => toString count ++ " trailing bytes after certificate"
  | container => "malformed PKCS#8 container: unexpected encoding"
  | notRsa algorithm => "PKCS#8 container holds a " ++ algorithm ++ " key, expected rsaEncryption"
  | rsa => "invalid RSA key: parts malformed or inconsistent"

end DecodeError

end RootAuthority
