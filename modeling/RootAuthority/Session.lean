import RootAuthority.Bootstrap.Basic
import RootAuthority.Config.Document

/-!
# What one program does with its bootstrappers

A session is a row of steps that a program takes with any number of bootstrappers. They all draw
from one serial source and one supply of primes. In between the clock moves on, and others may
change the environment and the files. A step that fails does not end a session.
-/

namespace RootAuthority.Session

/-- One thing that happens in a session. -/
inductive Step
  /-- An authority is recovered, or minted and written. -/
  | bootstrap (b : Bootstrapper)
  /-- An authority is recovered. -/
  | load (b : Bootstrapper)
  /-- A serial number is drawn. -/
  | drawSerial
  | certificatePath (b : Bootstrapper)
  | keyPath (b : Bootstrapper)
  | readCertificate (path : Path)
  | readPrivateKey (path : Path)
  /-- A certificate or key file is written. -/
  | writeRestricted (path : Path) (contents : Octets)
  /-- A bootstrapper is made as the configuration in a file says. -/
  | reopen (configuration : Path)
  | setClock (now : Instant)
  | setEnvironment (environment : Environment)
  /-- Others change files. -/
  | setFiles (files : FileSystem)

/-- What a step gives back. -/
inductive Answer
  | bootstrapped (result : Except MintFailure Authority)
  | loaded (result : Except LoadError Authority)
  | drawn (serial : Option Nat)
  | path (path : Path)
  | certificate (result : Except LoadError Certificate)
  | privateKey (result : Except LoadError StoredKey)
  | written (result : Except FileError Unit)
  | opened (result : Except ConfigError Bootstrapper)
  | nothing

namespace Step

/-- **One step**, its answer and the world after it. -/
def run (w : World) : Step → Answer × World
  | bootstrap b =>
    let (result, w) := b.bootstrap w
    (.bootstrapped result, w)
  | load b =>
    let (result, w) := b.load w
    (.loaded result, w)
  | drawSerial =>
    let (drawn, serials) := w.serials.next
    (.drawn drawn, { w with serials := serials })
  | certificatePath b =>
    let (path, w) := b.certificatePath w
    (.path path, w)
  | keyPath b =>
    let (path, w) := b.keyPath w
    (.path path, w)
  | readCertificate path => (.certificate (w.files.readCertificate path), w)
  | readPrivateKey path => (.privateKey (w.files.readPrivateKey path), w)
  | writeRestricted path contents => match w.files.writeRestricted path contents with
    | .ok files => (.written (.ok ()), { w with files := files })
    | .error e => (.written (.error e), w)
  | reopen configuration => match Config.load w.files configuration with
    | .ok c =>
      let (b, events) := Bootstrapper.ofConfig w.environment c
      (.opened (.ok b), w.report events)
    | .error e => (.opened (.error e), w)
  | setClock now => (.nothing, { w with clock := now })
  | setEnvironment environment => (.nothing, { w with environment := environment })
  | setFiles files => (.nothing, { w with files := files })

end Step

/-- **A whole session.** -/
def run (w : World) : List Step → List Answer × World
  | [] => ([], w)
  | step :: steps =>
    let (answer, w) := step.run w
    let (answers, w) := run w steps
    (answer :: answers, w)

end RootAuthority.Session
