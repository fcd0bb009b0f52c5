import RootAuthority.Bootstrap.Basic

/-!
# Several processes on one file system

A run of a bootstrapper touches the file system in steps, each of which reads or writes one file, and
between them other processes may take theirs: nothing is locked. `Phase` is where a process stands
between two steps, `Bootstrapper.act` is one step, and `Bootstrapper.acts` the steps of a process
that is alone. In a `Race` processes share the file system and nothing else, and take their steps in
any order (`Race.run`). It keeps a note of who wrote each of the two files last.
-/

namespace RootAuthority

/-- The two files of an authority. -/
inductive Artifact
  | certificate
  | key
deriving DecidableEq, Repr

/-- Where a process stands between two steps of a run. -/
inductive Phase
  /-- The certificate is to be read. -/
  | start
  /-- The certificate was read, and the key is to be read. -/
  | certificateRead (path : Path) (certificate : Certificate)
  /-- An authority was minted, and its certificate is to be written. -/
  | minted (authority : Authority)
  /-- The certificate was written, and the key is to be written. -/
  | certificateWritten (path : Path) (authority : Authority)
  /-- The run is over. -/
  | done (result : Except MintFailure Authority)

/-- The file that was written between two phases. -/
def Phase.written : Phase → Phase → Option Artifact
  | .minted _, .certificateWritten _ _ => some .certificate
  | .certificateWritten _ _, .done (.ok _) => some .key
  | _, _ => none

namespace Bootstrapper

/-- Mints, in the step that found something missing. -/
def startOver (b : Bootstrapper) (w : World) : Phase × World :=
  match w.mint b.identity with
  | (.ok authority, w) => (.minted authority, w)
  | (.error failure, w) => (.done (.error failure), w)

/-- **One step of a run.** -/
def act (b : Bootstrapper) : Phase → World → Phase × World
  | .start, w => match b.readCertificate w with
    | (.ok (path, certificate), w) => (.certificateRead path certificate, w)
    | (.error _, w) => b.startOver w
  | .certificateRead path certificate, w => match b.readKey path certificate w with
    | (.ok authority, w) => (.done (.ok authority), w)
    | (.error _, w) => b.startOver w
  | .minted authority, w => match b.writeCertificate authority w with
    | (.ok path, w) => (.certificateWritten path authority, w)
    | (.error failure, w) => (.done (.error failure), w)
  | .certificateWritten path authority, w => match b.writeKey path authority w with
    | (result, w) => (.done result, w)
  | .done result, w => (.done result, w)

/-- A number of steps without any by others. -/
def acts (b : Bootstrapper) : (steps : Nat) → Phase → World → Phase × World
  | 0, phase, w => (phase, w)
  | steps + 1, phase, w => match b.act phase w with
    | (phase, w) => acts b steps phase w

end Bootstrapper

/-- A process in a run. -/
structure Process where
  bootstrapper : Bootstrapper
  /-- What the process has for itself; its files are those that it saw last. -/
  world : World
  phase : Phase

/-- A step of a process, on the files as they are now. -/
def Process.step (p : Process) (files : FileSystem) : Process :=
  let (phase, w) := p.bootstrapper.act p.phase { p.world with files := files }
  { p with world := w, phase := phase }

/-- **Processes that share the file system.** -/
structure Race (ι : Type) where
  files : FileSystem
  process : ι → Process
  /-- Who wrote a file last, if anyone did. -/
  lastWriter : Artifact → Option ι

namespace Race

variable {ι : Type}

/-- All processes before their first step. -/
def start (files : FileSystem) (bootstrapper : ι → Bootstrapper) (world : ι → World) : Race ι where
  files := files
  process i := ⟨bootstrapper i, world i, .start⟩
  lastWriter _ := none

variable [DecidableEq ι]

/-- **One process takes one step.** -/
def step (r : Race ι) (i : ι) : Race ι :=
  let p := r.process i
  let p' := p.step r.files
  { files := p'.world.files
    process := fun j => if j = i then p' else r.process j
    lastWriter := fun x => if p.phase.written p'.phase = some x then some i else r.lastWriter x }

/-- **The processes take steps in the order of a schedule.** -/
def run (r : Race ι) (schedule : List ι) : Race ι := schedule.foldl step r

end Race

end RootAuthority
