import RootAuthority.Log
import RootAuthority.Storage.FileSystem

/-!
# Where certificate and key are kept

A locator names the storage directory: one given outright, or one application segment below the
user's configuration directory. Where there is neither, file names are taken as they are, from the
working directory.

Asking a locator for the path of a file creates the directory first, for its owner alone. That the
directory could not be created is reported and not an error: the path is given all the same, and
reading or writing there will fail with the actual reason.
-/

namespace RootAuthority

/-- What the surroundings say about the user's directories. -/
structure Environment where
  home : Option String
  xdgConfigHome : Option String
deriving DecidableEq, Repr

namespace Environment

/-- **The user's configuration directory**: the one named outright if it is absolute, else the usual
    one below the home directory. -/
def configDirectory (env : Environment) : Option Path :=
  match env.xdgConfigHome.filter Path.isAbsolute with
  | some dir => some dir
  | none => (env.home.filter (!·.isEmpty)).map fun home => Path.join home ".config"

end Environment

/-- The storage directory, if there is one. -/
structure Locator where
  directory : Option Path
deriving DecidableEq, Repr

namespace Locator

/-- A locator for a given directory. -/
def inDirectory (dir : Path) : Locator := ⟨some dir⟩

/-- A locator for the working directory. -/
def workingDirectory : Locator := ⟨none⟩

/-- **A locator for one segment below the user's configuration directory**, with a warning if there
    is no such directory. -/
def forUser (env : Environment) (segment : String) : Locator × List LogEvent :=
  match env.configDirectory with
  | some dir => (⟨some (dir.join segment)⟩, [])
  | none => (⟨none⟩,
      [⟨.storage, .warn, "no user configuration directory, falling back to the working directory"⟩])

/-- The mode of a storage directory: only the owner may enter it. -/
def directoryMode : Nat := 0o700

/-- Creates the directory if it is missing. -/
def ensureDirectory (dir : Path) (fs : FileSystem) : FileSystem × List LogEvent :=
  if fs.isDirectory dir then (fs, [])
  else match FileSystem.makeDirectories directoryMode dir.ancestors fs with
    | (.ok (), fs) => (fs, [⟨.storage, .debug, "created storage directory " ++ dir⟩])
    | (.error .alreadyExists, fs) => (fs, [])
    | (.error e, fs) =>
      (fs, [⟨.storage, .warn, "failed to create storage directory " ++ dir ++ ": " ++ e.message⟩])

/-- **The path of a file in the storage directory**, which is created if it is missing. -/
def resolve (l : Locator) (file : String) (fs : FileSystem) : Path × FileSystem × List LogEvent :=
  match l.directory with
  | none => (file, fs, [])
  | some dir =>
    let (fs, events) := ensureDirectory dir fs
    (dir.join file, fs, events)

end Locator

end RootAuthority
