import RootAuthority.Storage.FileSystem

/-!
# Excerpts of a file system

A run that works on a `FileSystem` in memory needs only the paths that it touches. An excerpt holds
these and the directories above them, without links: two dots go up in the text of the path. After the
run the excerpt tells what has changed.
-/

namespace RootAuthority.FileSystem

/-- The excerpt of nothing but the working directory and those above it. -/
def excerpt (workingDirectory : Location) : FileSystem where
  entries := (List.range workingDirectory.length).map fun k =>
    (workingDirectory.take (k + 1), .directory 0o755)
  workingDirectory := workingDirectory

/-- The location that the text of a path names. -/
def namedLocation (fs : FileSystem) (p : Path) : Location :=
  p.names.foldl (fun loc name =>
    if name = "" ∨ name = "." then loc
    else if name = ".." then loc.dropLast
    else loc ++ [name]) (fs.startOf p)

/-- **What has changed** since an earlier state: the entries that are new or different. -/
def changesSince (fs before : FileSystem) : List (Location × Entry) :=
  fs.entries.filter fun (loc, e) => before.find? loc ≠ some e

end RootAuthority.FileSystem
