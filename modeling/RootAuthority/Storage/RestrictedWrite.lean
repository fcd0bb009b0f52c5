import RootAuthority.Storage.FileSystem

/-!
# Writing a file that only its owner may read

A write runs as a list of steps (`RestrictedWrite.stepsFor`): the file is created or emptied, its
mode is restricted, the contents follow in one or more pieces, and the file is synced. The mode given
on creation does not touch a file that is there already, so the mode is set again before the first
octet arrives; no contents are ever in a file with a wider mode. A write cut off anywhere leaves the
effect of the steps before the cut (`RestrictedWrite.runSteps` on a beginning of the list).
-/

namespace RootAuthority

/-- The mode of certificate and key files: only the owner reads and writes. -/
def artifactMode : Nat := 0o600

namespace RestrictedWrite

/-- One step of a write that others can observe. -/
inductive Step
  /-- Create the file, or empty it. -/
  | create
  /-- Restrict the file's mode. -/
  | restrict
  /-- Add octets at the end. -/
  | append (piece : Octets)
  /-- Bring the contents to the disk. -/
  | sync
deriving DecidableEq

/-- The state between two steps: the file system, and the open file. -/
structure State where
  files : FileSystem
  opened? : Option Location

/-- One step of a write to `path`. Before the file is open the other steps have nothing to act
    on. -/
def step (path : Path) (s : State) : Step → Except FileError State
  | .create => (s.files.openForWriting artifactMode path).map fun (loc, fs) => ⟨fs, some loc⟩
  | .restrict => .ok { s with files := match s.opened? with
      | some loc => s.files.setMode loc artifactMode
      | none => s.files }
  | .append piece => .ok { s with files := match s.opened? with
      | some loc => s.files.append loc piece
      | none => s.files }
  | .sync => .ok s

/-- Runs steps in order up to the first that fails, which changes nothing, and gives the state that
    is left. -/
def runSteps (path : Path) : List Step → State → Except FileError Unit × State
  | [], s => (.ok (), s)
  | a :: rest, s => match step path s a with
    | .ok s => runSteps path rest s
    | .error e => (.error e, s)

/-- The steps that fill an open file, piece after piece. -/
def fillSteps (pieces : List Octets) : List Step := pieces.map .append ++ [.sync]

/-- **The steps of a write** whose contents come in some pieces. -/
def stepsFor (pieces : List Octets) : List Step := .create :: .restrict :: fillSteps pieces

end RestrictedWrite

namespace FileSystem

/-- **Replaces the contents of a file and restricts its mode to the owner.** -/
def writeRestricted (fs : FileSystem) (path : Path) (contents : Octets) :
    Except FileError FileSystem :=
  match RestrictedWrite.runSteps path (RestrictedWrite.stepsFor [contents]) ⟨fs, none⟩ with
  | (.ok (), s) => .ok s.files
  | (.error e, _) => .error e

end FileSystem

end RootAuthority
