import RootAuthority.CommandLine.Run
import RootAuthority.Rsa.PrimeSearch
import RootAuthority.Storage.Excerpt
import Std.Time

/-!
# The program

Collects what a run needs, runs it, and carries out what it changed. The paths that a run touches are
read in two rounds, since the configuration names some of them. Primes are looked for only if an
authority will be minted.
-/

namespace RootAuthority.Program

/-- The text of a location as a path. -/
def pathOf (loc : Location) : String := "/" ++ "/".intercalate loc

/-- What stands at a location. -/
def lookUp (loc : Location) : IO (Option Entry) := do
  try
    let contents ← IO.FS.readBinFile (pathOf loc)
    return some (.file 0o644 contents.data.toList)
  catch
    | .inappropriateType _ 21 _ => return some (.directory 0o755)
    | _ => return none

/-- Adds paths and the directories above them to an excerpt. -/
def addPaths (fs : FileSystem) (paths : List Path) : IO FileSystem := do
  let mut fs := fs
  for p in paths do
    for q in p.ancestors do
      let loc := fs.namedLocation q
      if (fs.find? loc).isNone then
        if let some e ← lookUp loc then
          fs := fs.put loc e
  return fs

/-- The permissions that an octal digit stands for. -/
def rights (digit : Nat) : IO.AccessRight where
  read := digit / 4 % 2 = 1
  write := digit / 2 % 2 = 1
  execution := digit % 2 = 1

/-- Gives a path a mode. -/
def giveMode (path : String) (mode : Nat) : IO Unit :=
  IO.setAccessRights path ⟨rights (mode / 64), rights (mode / 8), rights mode⟩

/-- Brings about an entry. A file gets its mode before its contents. -/
def bringAbout (loc : Location) : Entry → IO Unit
  | .directory mode => do
    IO.FS.createDir (pathOf loc)
    giveMode (pathOf loc) mode
  | .file mode contents => do
    IO.FS.writeBinFile (pathOf loc) ByteArray.empty
    giveMode (pathOf loc) mode
    IO.FS.writeBinFile (pathOf loc) ⟨contents.toArray⟩
  | .link _ => return

/-- The time now. -/
def now : IO Instant := do
  let t ← Std.Time.Timestamp.now
  let nanos := t.val.second.val * 1000000000 + t.val.nano.val
  return ⟨nanos / 1000000000, (nanos % 1000000000).toNat⟩

/-- Two primes for a fresh key. -/
def drawPrimes : IO (List Rsa.PrimePair) := do
  for _ in List.range 16 do
    let random1 ← IO.getRandomBytes 128
    let random2 ← IO.getRandomBytes 128
    if let some pair := Rsa.PrimeSearch.pair? random1.data.toList random2.data.toList then
      return [pair]
  return []

/-- The surroundings of a run with these arguments. -/
def surroundings (arguments : List String) : IO World := do
  let directory := toString (← IO.currentDir)
  let environment : Environment := ⟨← IO.getEnv "HOME", ← IO.getEnv "XDG_CONFIG_HOME"⟩
  let start := FileSystem.excerpt ((Path.steps directory).filter (!·.isEmpty))
  let clock ← now
  let w : World := ⟨start, environment, clock, SerialSource.ofClock clock, [], []⟩
  let w := { w with files := ← addPaths w.files (CommandLine.touchedPaths w arguments) }
  let w := { w with files := ← addPaths w.files (CommandLine.touchedPaths w arguments) }
  if CommandLine.willMint w arguments then return { w with primes := ← drawPrimes } else return w

/-- Runs the program on its arguments and gives the exit code. -/
def run (arguments : List String) : IO UInt32 := do
  try
    let before ← surroundings arguments
    let (outcome, after) := CommandLine.run before (← IO.getEnv "RUST_LOG") arguments
    for (loc, e) in after.files.changesSince before.files do
      bringAbout loc e
    IO.print outcome.output
    IO.eprint outcome.errors
    return UInt32.ofNat outcome.exitCode
  catch e =>
    IO.eprintln ("Error: " ++ toString e)
    return 1

end RootAuthority.Program

/-- Runs the program. -/
def main (arguments : List String) : IO UInt32 := RootAuthority.Program.run arguments
