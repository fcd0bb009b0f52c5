import RootAuthority.CommandLine.Failure
import RootAuthority.CommandLine.LogFilter
import RootAuthority.CommandLine.Usage
import RootAuthority.Config.Document

/-!
# Runs of the program

A run reads the arguments and the configuration, recovers or mints an authority, and prints what it
is. On request it also writes the certificate as PEM text to a file that everybody may read.

Log events that the filter lets through are printed where they happen, between the other lines. A run
ends with exit code 0; with 1 if something failed, 2 if the arguments are wrong, and 101 if the clock
shows a time that cannot be dealt with.
-/

namespace RootAuthority.CommandLine

/-- What a run leaves behind: its exit code and what it printed. -/
structure Outcome where
  exitCode : Nat
  output : String
  errors : String
deriving DecidableEq, Repr

namespace Outcome

/-- A run that went well. -/
def success (output : String) : Outcome := ⟨0, output, ""⟩

end Outcome

/-- The surroundings of a run and what it printed so far. -/
structure Console where
  filter : LogFilter
  world : World
  output : String

namespace Console

/-- Prints the events reported since the last time. -/
def printLog (c : Console) : Console :=
  let printed := (c.world.log.filter c.filter.admits).map (logLine c.world.clock)
  { c with world := { c.world with log := [] }, output := c.output ++ String.join printed }

/-- Goes on in changed surroundings. -/
def goOn (c : Console) (w : World) : Console := { c with world := w }.printLog

/-- Prints a line. -/
def print (c : Console) (line : String) : Console := { c with output := c.output ++ line ++ "\n" }

/-- Ends the run with a failure. -/
def fail (c : Console) (f : Failure) : Outcome × World :=
  (⟨1, c.output, f.message⟩, c.world)

/-- Ends the run with a crash. -/
def crash (c : Console) : Outcome × World :=
  (⟨101, c.output, "the clock shows a time out of range\n"⟩, c.world)

/-- Ends the run. -/
def finish (c : Console) : Outcome × World := (.success c.output, c.world)

/-! ## The steps of a run -/

/-- Prints where an authority is kept and what it is. -/
def describe (c : Console) (b : Bootstrapper) (a : Authority) : Console :=
  let (certificatePath, w) := b.certificatePath c.world
  let c := (c.goOn w).print ("certificate: " ++ certificatePath)
  let (keyPath, w) := b.keyPath c.world
  let c := (c.goOn w).print ("private key: " ++ keyPath)
  [ "origin:      " ++ a.origin.name,
    "subject:     " ++ a.certificate.subject.text,
    "serial:      " ++ a.certificate.serial.toHex,
    "not before:  " ++ a.certificate.notBefore.display,
    "not after:   " ++ a.certificate.notAfter.display,
    "sha256:      " ++ a.fingerprint ].foldl print c

/-- The mode of the exported certificate: everybody may read it. -/
def exportMode : Nat := 0o644

/-- Writes the certificate as PEM text. -/
def exportTo (c : Console) (path : Path) (a : Authority) : Outcome × World :=
  match c.world.files.write path (Octets.ofText a.pem) with
  | .error e => c.fail (.ofWrite path e)
  | .ok files =>
    let c := { c with world := { c.world with files := files } }
    match files.changeMode path exportMode with
    | .error e => c.fail (.ofMode path e)
    | .ok files =>
      (c.goOn ({ c.world with files := files }.report
        [⟨.commandLine, .info, "exported CA certificate to " ++ path⟩])).finish

/-- The configuration with the storage directory replaced, if there is another. -/
def override (directory : Option Path) (config : Config) : Config :=
  match directory with
  | none => config
  | some dir => { config with storage := { config.storage with directory := some dir } }

/-- Recovers or mints an authority as configured, and tells about it. -/
def runConfigured (c : Console) (config : Config) (exportPath : Option Path) : Outcome × World :=
  let (b, events) := Bootstrapper.ofConfig c.world.environment config
  let c := c.goOn (c.world.report events)
  match b.bootstrap c.world with
  | (.error (.refused e), w) => (c.goOn w).fail (.ofMint e)
  | (.error (.crashed _), w) => (c.goOn w).crash
  | (.ok a, w) =>
    let c := (c.goOn w).describe b a
    match exportPath with
    | none => c.finish
    | some path => c.exportTo path a

end Console

/-- The configuration that the settings lead to. -/
def configure (files : FileSystem) (values : Values) : Except Failure Config :=
  let directory := values.lookup .directory
  match values.lookup .config with
  | none => .ok (Console.override directory Config.default)
  | some path => match Config.load files path with
    | .error e => .error (.ofConfig path e)
    | .ok config => .ok (Console.override directory config)

/-- Runs with these settings. The clock is first asked once the configuration is there. -/
def runWith (c : Console) (values : Values) : Outcome × World :=
  match configure c.world.files values with
  | .error f => c.fail f
  | .ok config =>
    if c.world.clock.Representable then c.runConfigured config (values.lookup .exportPem)
    else c.crash

/-- **A run of the program** with these arguments; `logSetting` describes the log filter. Serial
    numbers start from the clock. -/
def run (w : World) (logSetting : Option String) (arguments : List String) : Outcome × World :=
  match readArguments arguments with
  | .error e => (⟨2, "", e.message⟩, w)
  | .ok (.help long) => (.success (if long then longHelp else shortHelp), w)
  | .ok .version => (.success versionText, w)
  | .ok (.run values) =>
    let w := { w with serials := SerialSource.ofClock w.clock }
    runWith ⟨LogFilter.parse logSetting, w, ""⟩ values

/-! ## What a run needs -/

/-- The settings of a run, and the bootstrapper they lead to. -/
def plan (w : World) (arguments : List String) : Values × Option Bootstrapper :=
  match readArguments arguments with
  | .ok (.run values) => (values, match configure w.files values with
    | .ok config => some (Bootstrapper.ofConfig w.environment config).1
    | .error _ => none)
  | _ => ([], none)

/-- **The paths that a run may touch**, as far as the files seen so far tell. -/
def touchedPaths (w : World) (arguments : List String) : List Path :=
  let (values, b?) := plan w arguments
  let named := [values.lookup .config, values.lookup .exportPem].filterMap id
  match b? with
  | none => named
  | some b => named ++ [(b.certificatePath w).1, (b.keyPath w).1]

/-- The run will mint an authority. -/
def willMint (w : World) (arguments : List String) : Bool :=
  match (plan w arguments).2 with
  | none => false
  | some b => match b.load w with
    | (.ok _, _) => false
    | (.error _, _) => true

end RootAuthority.CommandLine
