import RootAuthority.Identity
import RootAuthority.Storage.Locator
import RootAuthority.Text.Blank
import RootAuthority.Text.Quoted

/-!
# Configuration: settings, defaults and the rules they obey

A configuration says where certificate and key are kept, what a fresh certificate says about its
holder, and whether a certificate found on disk has to belong to the key found beside it. Each
setting has a default.

A configuration is usable if it keeps the rules that `Config.violation?` checks in order: the
namespace is not blank, both file names are names and not paths, they differ, the common name is
not blank, and every DNS name is ASCII without blanks. The first broken rule is reported.
-/

namespace RootAuthority

/-- Where certificate and key are kept. -/
structure StorageSettings where
  /-- The segment below the user's configuration directory. -/
  namespaceSegment : String
  /-- The storage directory outright, instead of the user's. -/
  directory : Option Path
  certificateFile : String
  keyFile : String
deriving DecidableEq, Repr

namespace StorageSettings

/-- The settings of an empty configuration. -/
def default : StorageSettings := ⟨"mitm-ca", none, "ca.der", "caKey.der"⟩

end StorageSettings

/-- A configuration. -/
structure Config where
  version : Nat
  storage : StorageSettings
  subject : Identity
  /-- A certificate that was not issued for the key beside it is replaced. -/
  verifyKeyBinding : Bool
deriving DecidableEq, Repr

namespace Config

/-- **The configuration in which nothing is set.** -/
def default : Config := ⟨1, StorageSettings.default, Identity.default, true⟩

/-! ## Rules -/

/-- The rule that a configuration breaks. -/
inductive Violation
  | blankNamespace
  | emptyFileName
  | separatorInFileName (name : String)
  | sameFile
  | blankCommonName
  | dnsName (name : String)
deriving DecidableEq, Repr

namespace Violation

/-- The text that says what is wrong. -/
def message : Violation → String
  | blankNamespace => "empty storage namespace"
  | emptyFileName => "empty file name"
  | separatorInFileName name => "file name must not contain a path separator: " ++ name
  | sameFile => "certificate and key must use different files"
  | blankCommonName => "empty common name"
  | dnsName name => "invalid DNS name: " ++ Text.quoted name

end Violation

/-- What is wrong with a file name. -/
def fileNameViolation? (name : String) : Option Violation :=
  if name.isEmpty then some .emptyFileName
  else if name.toList.any fun c => c = '/' ∨ c = '\\' then some (.separatorInFileName name)
  else none

/-- The name can stand in a certificate: not empty, ASCII, without blanks. -/
def isDnsName (name : String) : Bool :=
  !name.isEmpty && name.toList.all fun c => c.toNat < 128 && !Text.isBlank c

/-- **The first rule that a configuration breaks.** -/
def violation? (c : Config) : Option Violation :=
  if Text.allBlank c.storage.namespaceSegment then some .blankNamespace
  else match fileNameViolation? c.storage.certificateFile with
    | some v => some v
    | none => match fileNameViolation? c.storage.keyFile with
      | some v => some v
      | none =>
        if c.storage.certificateFile = c.storage.keyFile then some .sameFile
        else if Text.allBlank c.subject.commonName then some .blankCommonName
        else (c.subject.dnsNames.find? (!isDnsName ·)).map .dnsName

/-! ## What follows from a configuration -/

/-- **The locator that a configuration describes**: the directory given outright, else the user's. -/
def locator (env : Environment) (c : Config) : Locator × List LogEvent :=
  match c.storage.directory with
  | some dir => (Locator.inDirectory dir, [])
  | none => Locator.forUser env c.storage.namespaceSegment

/-- The identity that fresh certificates get. -/
def identity (c : Config) : Identity := c.subject

end Config

/-- Why no configuration could be had. -/
inductive ConfigError
  | unreadable (cause : FileError)
  | malformed
  | invalid (broken : Config.Violation)
deriving DecidableEq, Repr

namespace ConfigError

/-- The text of a configuration error. -/
def message : ConfigError → String
  | unreadable cause => "failed to read config file: " ++ cause.message
  | malformed => "failed to parse config: not a configuration document"
  | invalid broken => "invalid config: " ++ broken.message

end ConfigError

end RootAuthority
