import RootAuthority.Config.Basic
import RootAuthority.Storage.Artifact
import RootAuthority.World

/-!
# Recovering an authority, or minting one

A bootstrapper looks for certificate and key in the storage directory. If both are there and belong
together, they are returned as they are (`Bootstrapper.load`). Otherwise a new authority is minted
and both files are written, the certificate first; an authority that could not be written is not
returned (`Bootstrapper.bootstrap`).

A run is put together from four steps on files, each of which touches one of the two:
`readCertificate`, `readKey`, `writeCertificate` and `writeKey`.
-/

namespace RootAuthority

/-- Where an authority is kept and how it is made. -/
structure Bootstrapper where
  locator : Locator
  identity : Identity
  certificateFile : String
  keyFile : String
  /-- A certificate that was not issued for the key beside it is replaced. -/
  verifyKeyBinding : Bool
deriving DecidableEq, Repr

namespace Bootstrapper

/-- A bootstrapper with the default file names that checks certificate against key. -/
def new (locator : Locator) (identity : Identity) : Bootstrapper where
  locator := locator
  identity := identity
  certificateFile := StorageSettings.default.certificateFile
  keyFile := StorageSettings.default.keyFile
  verifyKeyBinding := true

/-- **The bootstrapper that a configuration describes.** -/
def ofConfig (env : Environment) (c : Config) : Bootstrapper × List LogEvent :=
  let (locator, events) := c.locator env
  ({ locator := locator
     identity := c.identity
     certificateFile := c.storage.certificateFile
     keyFile := c.storage.keyFile
     verifyKeyBinding := c.verifyKeyBinding }, events)

/-- The path of the certificate; the storage directory is created if it is missing. -/
def certificatePath (b : Bootstrapper) (w : World) : Path × World :=
  w.resolve b.locator b.certificateFile

/-- The path of the key; the storage directory is created if it is missing. -/
def keyPath (b : Bootstrapper) (w : World) : Path × World := w.resolve b.locator b.keyFile

/-! ## 1. Loading -/

/-- The report on a certificate that was not there, or could not be taken from disk. -/
def certificateReport (path : Path) (e : LoadError) : LogEvent :=
  if e.isNotFound then ⟨.bootstrap, .debug, "no CA certificate at " ++ path ++ ", generating"⟩
  else ⟨.bootstrap, .warn, "error reading CA certificate, regenerating: " ++ e.message⟩

/-- **First step**: takes the certificate from disk. -/
def readCertificate (b : Bootstrapper) (w : World) :
    Except LoadError (Path × Certificate) × World :=
  let (path, w) := b.certificatePath w
  match w.files.readCertificate path with
  | .ok certificate => (.ok (path, certificate), w)
  | .error e => (.error e, w.report [certificateReport path e])

/-- Takes certificate and key together, if they belong together or nobody asks. -/
def pair (b : Bootstrapper) (certificatePath keyPath : Path) (certificate : Certificate)
    (key : StoredKey) : Except LoadError Authority :=
  let authority : Authority := ⟨certificate, key, .recovered⟩
  if b.verifyKeyBinding ∧ authority.keyMatches = false then
    .error (.keyMismatch certificatePath keyPath)
  else .ok authority

/-- **Second step**: takes the key from disk and puts it to the certificate. -/
def readKey (b : Bootstrapper) (certificatePath : Path) (certificate : Certificate) (w : World) :
    Except LoadError Authority × World :=
  let (path, w) := b.keyPath w
  match w.files.readPrivateKey path with
  | .error e =>
    (.error e, w.report [⟨.bootstrap, .warn, "error reading CA private key, regenerating: " ++ e.message⟩])
  | .ok key =>
    match b.pair certificatePath path certificate key with
    | .error e => (.error e, w.report [⟨.bootstrap, .warn, e.message ++ ", regenerating"⟩])
    | .ok authority =>
      (.ok authority, w.report [⟨.bootstrap, .info, "recovered CA certificate (serial "
        ++ certificate.serial.toHex ++ ") from " ++ certificatePath⟩])

/-- **Recovers the authority from disk**, or tells what is in the way. -/
def load (b : Bootstrapper) (w : World) : Except LoadError Authority × World :=
  match b.readCertificate w with
  | (.error e, w) => (.error e, w)
  | (.ok (path, certificate), w) => b.readKey path certificate w

/-! ## 2. Storing -/

/-- **Third step**: writes the certificate. -/
def writeCertificate (b : Bootstrapper) (authority : Authority) (w : World) :
    Except MintFailure Path × World :=
  let (path, w) := b.certificatePath w
  match w.files.writeRestricted path authority.certificate.der with
  | .ok files => (.ok path, { w with files := files })
  | .error e => (.error (.refused (.persist path e)), w)

/-- **Fourth step**: writes the key. -/
def writeKey (b : Bootstrapper) (certificatePath : Path) (authority : Authority) (w : World) :
    Except MintFailure Authority × World :=
  let (path, w) := b.keyPath w
  match w.files.writeRestricted path authority.privateKey.container with
  | .ok files =>
    (.ok authority, { w with files := files }.report
      [⟨.bootstrap, .info, "generated CA certificate (serial " ++ authority.certificate.serial.toHex
        ++ ") at " ++ certificatePath⟩])
  | .error e => (.error (.refused (.persist path e)), w)

/-- Mints an authority and writes it. -/
def mintAndStore (b : Bootstrapper) (w : World) : Except MintFailure Authority × World :=
  match w.mint b.identity with
  | (.error failure, w) => (.error failure, w)
  | (.ok authority, w) =>
    match b.writeCertificate authority w with
    | (.error failure, w) => (.error failure, w)
    | (.ok path, w) => b.writeKey path authority w

/-! ## 3. Both -/

/-- **Recovers the authority from disk, or mints one and writes it.** Nothing that is in the way of
    loading fails a run. -/
def bootstrap (b : Bootstrapper) (w : World) : Except MintFailure Authority × World :=
  match b.load w with
  | (.ok authority, w) => (.ok authority, w)
  | (.error _, w) => b.mintAndStore w

end Bootstrapper

end RootAuthority
