import RootAuthority.Log
import RootAuthority.Mint
import RootAuthority.Serial
import RootAuthority.Storage.Locator

/-!
# The surroundings of the program

Everything that a run can read or change: the file system, the environment, the clock, the serial
source, the supply of primes for fresh keys, and the events reported so far, the oldest first.

`World.mint` mints an authority with the next serial number and the next primes. A serial number is
used up even if minting fails later, and so are the primes; an exhausted serial source uses up
neither.
-/

namespace RootAuthority

/-- What a run can read or change. -/
structure World where
  files : FileSystem
  environment : Environment
  clock : Instant
  serials : SerialSource
  primes : List Rsa.PrimePair
  log : List LogEvent

namespace World

/-- Reports events. -/
def report (w : World) (events : List LogEvent) : World := { w with log := w.log ++ events }

/-- Runs an operation that reports events and changes the file system. -/
def resolve (w : World) (l : Locator) (file : String) : Path × World :=
  let (path, files, events) := l.resolve file w.files
  (path, { w with files := files }.report events)

/-- **Mints an authority** with the next serial number and the next primes. -/
def mint (w : World) (identity : Identity) : Except MintFailure Authority × World :=
  match w.serials.next with
  | (none, _) => (.error (.refused .serialsExhausted), w)
  | (some serial, serials) =>
    let w := { w with serials := serials }
    match w.primes with
    | [] => (.error (.refused .keysExhausted), w)
    | pair :: primes =>
      let w := { w with primes := primes }
      match Authority.mint identity serial (Rsa.PrivateKey.ofPrimes pair) w.clock with
      | .error failure => (.error failure, w)
      | .ok authority =>
        (.ok authority,
          w.report [⟨.minting, .debug, "generated CA certificate with serial " ++ toString serial⟩])

end World

end RootAuthority
