import RootAuthority.Octets
import RootAuthority.Storage.Path

/-!
# A file system: directories, files and symbolic links

Entries are kept by location, the list of names from the root down. A path leads to a location by a
walk (`FileSystem.locate`): names are looked up one after the other, two dots go up, and a symbolic
link is replaced by its target, at most forty times. The last name may be vacant; that is where a
file or directory can be created.

Every operation gives either an error, and then changes nothing, or the changed file system. Files
are written in small steps, each of which another program can observe: a file is opened and emptied
(`openForWriting`), gets a mode (`setMode`) and receives octets (`append`).
-/

namespace RootAuthority

/-- Why a file operation failed. -/
inductive FileError
  | noSuchEntry
  | alreadyExists
  | notADirectory
  | isADirectory
  | nameTooLong
  | tooManyLinks
  | nulInName
  | notText
  | notRegular
deriving DecidableEq, Repr

namespace FileError

/-- The text of a file error. -/
def message : FileError → String
  | noSuchEntry => "No such file or directory (os error 2)"
  | alreadyExists => "File exists (os error 17)"
  | notADirectory => "Not a directory (os error 20)"
  | isADirectory => "Is a directory (os error 21)"
  | nameTooLong => "File name too long (os error 36)"
  | tooManyLinks => "Too many levels of symbolic links (os error 40)"
  | nulInName => "file name contained an unexpected NUL byte"
  | notText => "stream did not contain valid UTF-8"
  | notRegular => "the source path is neither a regular file nor a symlink to a regular file"

end FileError

/-- The names from the root directory down to an entry. -/
abbrev Location := List String

/-- What stands at a location. -/
inductive Entry
  | file (mode : Nat) (contents : Octets)
  | directory (mode : Nat)
  | link (target : Path)
deriving DecidableEq

/-- Entries by location, and the directory at which relative paths start. -/
structure FileSystem where
  entries : List (Location × Entry)
  workingDirectory : Location

namespace FileSystem

/-! ## 1. Entries -/

/-- Replaces the entry at a location, or adds it. -/
def putEntry (loc : Location) (e : Entry) : List (Location × Entry) → List (Location × Entry)
  | [] => [(loc, e)]
  | (l, old) :: rest => if l = loc then (l, e) :: rest else (l, old) :: putEntry loc e rest

/-- **The entry at a location**; the root is always a directory. -/
def find? (fs : FileSystem) (loc : Location) : Option Entry :=
  if loc = [] then some (.directory 0o755) else fs.entries.lookup loc

/-- The file system with one entry replaced or added. -/
def put (fs : FileSystem) (loc : Location) (e : Entry) : FileSystem :=
  { fs with entries := putEntry loc e fs.entries }

/-- The file system without an entry and all that is below it. -/
def erase (fs : FileSystem) (loc : Location) : FileSystem :=
  { fs with entries := fs.entries.filter fun (l, _) => !loc.isPrefixOf l }

theorem lookup_putEntry (loc loc' : Location) (e : Entry) (es : List (Location × Entry)) :
    (putEntry loc e es).lookup loc' = if loc' = loc then some e else es.lookup loc' := by
  induction es with
  | nil =>
    by_cases h : loc' = loc
    · simp [putEntry, h]
    · have h' : (loc' == loc) = false := by simpa using h
      simp [putEntry, List.lookup_cons, h, h']
  | cons p rest ih =>
    obtain ⟨l, old⟩ := p
    by_cases hl : l = loc
    · subst hl
      by_cases h : loc' = l
      · simp [putEntry, h]
      · have h' : (loc' == l) = false := by simpa using h
        simp [putEntry, List.lookup_cons, h, h']
    · by_cases h : loc' = l
      · subst h
        simp [putEntry, hl]
      · have h' : (loc' == l) = false := by simpa using h
        simp [putEntry, hl, List.lookup_cons, h', ih]

/-- **A put is seen at its own location and nowhere else.** -/
theorem find?_put (fs : FileSystem) {loc : Location} (hl : loc ≠ []) (loc' : Location) (e : Entry) :
    (fs.put loc e).find? loc' = if loc' = loc then some e else fs.find? loc' := by
  by_cases h : loc' = []
  · subst h
    simp [find?, hl.symm]
  · simp [find?, put, h, lookup_putEntry]

/-! ## 2. Walking along a path -/

/-- Where a path leads: a location, what stands there, and whether the path ended in a slash. -/
structure Target where
  location : Location
  entry? : Option Entry
  slash : Bool

/-- The longest name a directory can hold, in octets. -/
def nameLimit : Nat := 255

/-- The longest path that can be looked up, in octets. -/
def pathLimit : Nat := 4095

/-- How many symbolic links one walk may follow. -/
def linkLimit : Nat := 40

/-- Walks along names from a directory. The last name is not followed if it is a link and `follow`
    is off; every other link is handed to `onLink` with the names still to walk. -/
def walkNames (fs : FileSystem) (follow : Bool)
    (onLink : Location → List String → Except FileError Target) :
    Location → List String → Except FileError Target
  | dir, [] => .ok ⟨dir, fs.find? dir, false⟩
  | dir, name :: rest =>
    if name = "" ∨ name = "." then walkNames fs follow onLink dir rest
    else if name = ".." then walkNames fs follow onLink dir.dropLast rest
    else if nameLimit < name.utf8ByteSize then .error .nameTooLong
    else
      let loc := dir ++ [name]
      match fs.find? loc with
      | none => if rest.all (· = "") then .ok ⟨loc, none, !rest.isEmpty⟩ else .error .noSuchEntry
      | some (.directory _) => walkNames fs follow onLink loc rest
      | some (.file m c) =>
        if rest.all (· = "") then .ok ⟨loc, some (.file m c), !rest.isEmpty⟩
        else .error .notADirectory
      | some (.link target) =>
        if rest.isEmpty ∧ follow = false then .ok ⟨loc, some (.link target), false⟩
        else
          let start := if target.isAbsolute then [] else dir
          onLink start (target.names ++ rest)

/-- Walks along names and follows at most `links` symbolic links. -/
def walk (fs : FileSystem) (follow : Bool) : (links : Nat) → Location → List String →
    Except FileError Target
  | 0 => walkNames fs follow fun _ _ => .error .tooManyLinks
  | links + 1 => walkNames fs follow (walk fs follow links)

/-- What is wrong with the text of a path, before any look-up. -/
def pathFault? (p : Path) : Option FileError :=
  if p.toList.contains '\x00' then some .nulInName
  else if p.isEmpty then some .noSuchEntry
  else if pathLimit < p.utf8ByteSize then some .nameTooLong
  else none

/-- The directory at which a path starts. -/
def startOf (fs : FileSystem) (p : Path) : Location :=
  if p.isAbsolute then [] else fs.workingDirectory

/-- **Where a path leads.** -/
def locate (fs : FileSystem) (follow : Bool) (p : Path) : Except FileError Target :=
  match pathFault? p with
  | some e => .error e
  | none => fs.walk follow linkLimit (fs.startOf p) p.names

/-- Where a path leads without regard to slashes at its end; a last link is not followed. -/
def locateName (fs : FileSystem) (p : Path) : Except FileError Target :=
  match pathFault? p with
  | some e => .error e
  | none =>
    let ns := (p.names.reverse.dropWhile (· = "")).reverse
    fs.walk false linkLimit (fs.startOf p) ns

/-! ## 3. Reading -/

/-- The path leads to a directory. -/
def isDirectory (fs : FileSystem) (p : Path) : Bool :=
  match fs.locate true p with
  | .ok ⟨_, some (.directory _), _⟩ => true
  | _ => false

/-- **The contents of the file to which a path leads.** -/
def read (fs : FileSystem) (p : Path) : Except FileError Octets :=
  match fs.locate true p with
  | .error e => .error e
  | .ok ⟨_, some (.file _ contents), slash⟩ =>
    if slash then .error .notADirectory else .ok contents
  | .ok ⟨_, some (.directory _), _⟩ => .error .isADirectory
  | .ok ⟨_, some (.link _), _⟩ => .error .tooManyLinks
  | .ok ⟨_, none, _⟩ => .error .noSuchEntry

/-- The contents of a file, as text. -/
def readText (fs : FileSystem) (p : Path) : Except FileError String := do
  let contents ← fs.read p
  match contents.toText? with
  | some text => return text
  | none => throw .notText

/-! ## 4. Creating directories -/

/-- The permissions that new entries never get. -/
def withheld : Nat := 0o022

/-- A mode without the permissions that are withheld from new entries. -/
def grantedMode (mode : Nat) : Nat := mode &&& (0o7777 ^^^ withheld)

/-- Creates one directory; the directory above it has to exist. -/
def makeDirectory (fs : FileSystem) (mode : Nat) (p : Path) : Except FileError FileSystem :=
  match fs.locateName p with
  | .error e => .error e
  | .ok ⟨_, some _, _⟩ => .error .alreadyExists
  | .ok ⟨loc, none, _⟩ => .ok (fs.put loc (.directory (grantedMode mode)))

/-- Creates the first of the paths, after those above it where they are missing. What was created
    before a failure stays. -/
def makeDirectories (mode : Nat) : List Path → FileSystem → Except FileError Unit × FileSystem
  | [], fs => (.ok (), fs)
  | p :: above, fs =>
    match fs.makeDirectory mode p with
    | .ok fs => (.ok (), fs)
    | .error .noSuchEntry =>
      match makeDirectories mode above fs with
      | (.error e, fs) => (.error e, fs)
      | (.ok (), fs) =>
        match fs.makeDirectory mode p with
        | .ok fs => (.ok (), fs)
        | .error e => if fs.isDirectory p then (.ok (), fs) else (.error e, fs)
    | .error e => if fs.isDirectory p then (.ok (), fs) else (.error e, fs)

/-! ## 5. Writing files -/

/-- **Opens a file for writing**: the file to which the path leads is emptied and keeps its mode, a
    vacant place gets an empty file. The answer names the place. -/
def openForWriting (fs : FileSystem) (mode : Nat) (p : Path) :
    Except FileError (Location × FileSystem) :=
  match fs.locate true p with
  | .error e => .error e
  | .ok ⟨_, some (.directory _), _⟩ => .error .isADirectory
  | .ok ⟨_, some (.link _), _⟩ => .error .tooManyLinks
  | .ok ⟨loc, some (.file m _), slash⟩ =>
    if slash then .error .isADirectory else .ok (loc, fs.put loc (.file m []))
  | .ok ⟨loc, none, slash⟩ =>
    if slash then .error .isADirectory else .ok (loc, fs.put loc (.file (grantedMode mode) []))

/-- Gives the entry at a location a mode. -/
def setMode (fs : FileSystem) (loc : Location) (mode : Nat) : FileSystem :=
  match fs.find? loc with
  | some (.file _ contents) => fs.put loc (.file mode contents)
  | some (.directory _) => fs.put loc (.directory mode)
  | _ => fs

/-- Adds octets at the end of the file at a location. -/
def append (fs : FileSystem) (loc : Location) (piece : Octets) : FileSystem :=
  match fs.find? loc with
  | some (.file m contents) => fs.put loc (.file m (contents ++ piece))
  | _ => fs

/-- Replaces the contents of a file; a new file gets the usual mode. -/
def write (fs : FileSystem) (p : Path) (contents : Octets) : Except FileError FileSystem := do
  let (loc, fs) ← fs.openForWriting 0o666 p
  return fs.append loc contents

/-- Gives the entry to which a path leads a mode. -/
def changeMode (fs : FileSystem) (p : Path) (mode : Nat) : Except FileError FileSystem :=
  match fs.locate true p with
  | .error e => .error e
  | .ok ⟨_, none, _⟩ => .error .noSuchEntry
  | .ok ⟨loc, some (.file _ _), slash⟩ =>
    if slash then .error .notADirectory else .ok (fs.setMode loc mode)
  | .ok ⟨loc, some _, _⟩ => .ok (fs.setMode loc mode)

/-! ## 6. Links, copies and removal -/

/-- Creates a symbolic link. -/
def makeLink (fs : FileSystem) (target p : Path) : Except FileError FileSystem :=
  match pathFault? target with
  | some e => .error e
  | none => match fs.locate false p with
    | .error e => .error e
    | .ok ⟨_, some _, _⟩ => .error .alreadyExists
    | .ok ⟨loc, none, slash⟩ =>
      if slash then .error .noSuchEntry else .ok (fs.put loc (.link target))

/-- Copies contents and mode of a file. -/
def copy (fs : FileSystem) (source target : Path) : Except FileError FileSystem :=
  match fs.locate true source with
  | .error e => .error e
  | .ok ⟨_, none, _⟩ => .error .noSuchEntry
  | .ok ⟨_, some (.file m contents), slash⟩ =>
    if slash then .error .notADirectory
    else match fs.openForWriting m target with
      | .error e => .error e
      | .ok (loc, fs) => .ok ((fs.setMode loc m).append loc contents)
  | .ok ⟨_, some _, _⟩ => .error .notRegular

/-- Removes a file, a link, or a directory with all that is in it. -/
def remove (fs : FileSystem) (p : Path) : Except FileError FileSystem :=
  match fs.locateName p with
  | .error e => .error e
  | .ok ⟨_, none, _⟩ => .error .noSuchEntry
  | .ok ⟨loc, some _, _⟩ => .ok (fs.erase loc)

/-! ## 7. Listing -/

/-- Whether a location comes before another: a directory before what is in it, names by their
    characters. -/
def listedBefore : Location → Location → Bool
  | [], _ => true
  | _ :: _, [] => false
  | a :: l, b :: m => if a = b then listedBefore l m else decide (a < b)

/-- **Everything below a directory**, by the names that lead down from it. -/
def below (fs : FileSystem) (dir : Location) : List (Location × Entry) :=
  let inside := fs.entries.filterMap fun (l, e) =>
    if dir.isPrefixOf l ∧ l ≠ dir then some (l.drop dir.length, e) else none
  inside.mergeSort fun a b => listedBefore a.1 b.1

end FileSystem

end RootAuthority
