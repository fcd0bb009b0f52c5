import RootAuthority.Bootstrap.Basic
import RootAuthority.Text.Quoted

/-!
# How a run reports that it failed

A failure is told as what was being done, followed by the causes from the outside in. A single cause
stands alone, several are numbered, and further lines of a cause are indented like its first.
-/

namespace RootAuthority.CommandLine

/-- What was being done, and why it failed. -/
structure Failure where
  action : String
  causes : List String
deriving DecidableEq, Repr

namespace Failure

/-- A text whose later lines start with some spaces. -/
def indent (spaces : Nat) (s : String) : String :=
  String.ofList (s.toList.flatMap fun c =>
    if c = '\n' then '\n' :: List.replicate spaces ' ' else [c])

/-- The lines on the causes. -/
def causeLines : List String → List String
  | [] => []
  | [cause] => ["    " ++ indent 4 cause]
  | causes => causes.zipIdx.map fun (cause, i) => "    " ++ toString i ++ ": " ++ indent 7 cause

/-- **The text of a failure.** -/
def message (f : Failure) : String :=
  let causes := causeLines f.causes
  let about := if causes.isEmpty then [] else "" :: "Caused by:" :: causes
  String.join ((("Error: " ++ f.action) :: about).map (· ++ "\n"))

/-- The failure to get a configuration. -/
def ofConfig (path : Path) (e : ConfigError) : Failure where
  action := "failed to load config from " ++ Text.quotedPath path
  causes := e.message :: match e with
    | .unreadable cause => [cause.message]
    | .malformed => ["not a configuration document"]
    | .invalid _ => []

/-- The failure to get an authority. -/
def ofMint (e : MintError) : Failure where
  action := "failed to bootstrap CA"
  causes := e.message :: match e with
    | .persist _ cause => [cause.message]
    | .keysExhausted => ["no primes left"]
    | .signing => ["key refused"]
    | _ => []

/-- The failure to write the certificate to a file. -/
def ofWrite (path : Path) (e : FileError) : Failure where
  action := "failed to write " ++ path
  causes := [e.message]

/-- The failure to let everybody read that file. -/
def ofMode (path : Path) (e : FileError) : Failure where
  action := "failed to set permissions on " ++ path
  causes := [e.message]

end Failure

end RootAuthority.CommandLine
