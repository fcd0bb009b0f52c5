import RootAuthority.Authority
import RootAuthority.Storage.RestrictedWrite

/-!
# Certificate and key on disk

A certificate or key file either yields what it should hold, or a load error that says what is in
the way: the file is missing, cannot be read, cannot be decoded, or holds a key of another kind. A
certificate that was not issued for the key beside it is a load error too.
-/

namespace RootAuthority

/-- Why certificate or key could not be taken from disk. -/
inductive LoadError
  | notFound (path : Path)
  | unreadable (path : Path) (cause : FileError)
  | undecodable (path : Path) (cause : DecodeError)
  | wrongKeyType (path : Path) (cause : DecodeError)
  | keyMismatch (certificate key : Path)
deriving DecidableEq, Repr

namespace LoadError

/-- The text of a load error. -/
def message : LoadError → String
  | notFound path => path ++ " does not exist"
  | unreadable path cause => "failed to read " ++ path ++ ": " ++ cause.message
  | undecodable path cause => "failed to parse " ++ path ++ ": " ++ cause.message
  | wrongKeyType path cause => path ++ " does not hold an RSA key: " ++ cause.message
  | keyMismatch certificate key =>
    "certificate " ++ certificate ++ " was not issued for private key " ++ key

/-- The file was simply not there. -/
def isNotFound : LoadError → Bool
  | notFound _ => true
  | _ => false

/-- The decoding error behind a load error. -/
def decodeError? : LoadError → Option DecodeError
  | undecodable _ cause => some cause
  | wrongKeyType _ cause => some cause
  | _ => none

/-- The load error for a key that cannot be decoded. -/
def ofKey (path : Path) : DecodeError → LoadError
  | .notRsa algorithm => wrongKeyType path (.notRsa algorithm)
  | cause => undecodable path cause

end LoadError

namespace FileSystem

/-- The octets of a certificate or key file. -/
def readArtifact (fs : FileSystem) (path : Path) : Except LoadError Octets :=
  match fs.read path with
  | .ok contents => .ok contents
  | .error .noSuchEntry => .error (.notFound path)
  | .error cause => .error (.unreadable path cause)

/-- **The certificate in a file.** -/
def readCertificate (fs : FileSystem) (path : Path) : Except LoadError Certificate := do
  let contents ← fs.readArtifact path
  (Certificate.ofDer contents).mapError (.undecodable path)

/-- **The private key in a file.** -/
def readPrivateKey (fs : FileSystem) (path : Path) : Except LoadError StoredKey := do
  let contents ← fs.readArtifact path
  (StoredKey.ofContainer contents).mapError (.ofKey path)

end FileSystem

end RootAuthority
