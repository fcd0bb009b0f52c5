import RootAuthority.Storage.Path
import RootAuthority.Text.Similarity

/-!
# Arguments of the command line

Three settings take a path: the configuration file, the storage directory and a file for the
certificate as PEM text. Two requests take nothing: help and version. A setting or request has a long
name after two hyphens, and most have a letter after one. The value of a setting follows as the next
argument, after an equals sign, or right after the letter. Two hyphens alone end the settings.

Arguments are read from left to right. A value is taken in when the next setting or request is found,
or at the end; that it is empty or set already is noticed only then. An argument that is not known is
reported at once.
-/

namespace RootAuthority.CommandLine

/-- What can be set on the command line. -/
inductive Setting
  | config
  | directory
  | exportPem
deriving DecidableEq, Repr

namespace Setting

/-- The long name. -/
def name : Setting → String
  | config => "config"
  | directory => "dir"
  | exportPem => "export-pem"

/-- What stands for the value in messages. -/
def valueName : Setting → String
  | config => "CONFIG"
  | directory => "DIR"
  | exportPem => "FILE"

/-- The setting as it is named in messages. -/
def display (s : Setting) : String := "--" ++ s.name ++ " <" ++ s.valueName ++ ">"

end Setting

/-- What can be asked for instead of a run. -/
inductive Inquiry
  | help
  | version
deriving DecidableEq, Repr

namespace Inquiry

/-- The long name. -/
def name : Inquiry → String
  | help => "help"
  | version => "version"

end Inquiry

/-- What a name on the command line stands for. -/
inductive Switch
  | setting (s : Setting)
  | inquiry (q : Inquiry)
deriving DecidableEq, Repr

namespace Switch

/-- All of them, in the order in which help lists them. -/
def all : List Switch :=
  [setting .config, setting .directory, setting .exportPem, inquiry .help, inquiry .version]

/-- The long name. -/
def name : Switch → String
  | setting s => s.name
  | inquiry q => q.name

/-- The letter. -/
def letter? : Switch → Option Char
  | setting .config => some 'c'
  | setting .directory => some 'd'
  | setting .exportPem => none
  | inquiry .help => some 'h'
  | inquiry .version => some 'V'

/-- The switch as it is named in messages. -/
def display : Switch → String
  | setting s => s.display
  | inquiry q => "--" ++ q.name

/-- The measure of similarity above which a name is suggested for an unknown one. -/
def suggestionBound : Text.Fraction := ⟨7, 10⟩

/-- The switch whose name is most similar to an unknown one, if any is similar enough. -/
def similar? (unknown : List Char) : Option Switch :=
  let measure (s : Switch) := Text.similarity unknown s.name.toList
  (all.filter fun s => suggestionBound.less (measure s)).foldl (fun best s => match best with
    | none => some s
    | some b => if (measure s).less (measure b) then some b else some s) none

end Switch

/-- What is wrong with the arguments. -/
inductive ArgumentError
  /-- An argument that is not known, what it may have been meant for, and what else was set. -/
  | unexpected (argument : String) (meant : Option Switch) (used : List Switch)
  | valueMissing (s : Setting)
  | setTwice (s : Setting)
  | valueUnwanted (value : String) (q : Inquiry)
deriving DecidableEq, Repr

/-- The values of settings, in the order in which they were set. -/
abbrev Values := List (Setting × String)

/-- What the arguments ask for. -/
inductive Request
  | run (values : Values)
  /-- Help; `long` is the form with explanations. -/
  | help (long : Bool)
  | version
deriving DecidableEq, Repr

/-- A setting that was found, and its value if that was found too. -/
structure Pending where
  setting : Setting
  value : Option String
deriving DecidableEq, Repr

/-- What was found in the arguments so far. -/
structure Scan where
  values : Values
  pending : Option Pending
deriving DecidableEq, Repr

namespace Scan

/-- Nothing found yet. -/
def empty : Scan := ⟨[], none⟩

/-- The setting has a value. -/
def isSet (s : Scan) (o : Setting) : Bool := s.values.any (·.1 = o)

/-- Sets a value, which is not empty, once. -/
def set (s : Scan) (o : Setting) (value : String) : Except ArgumentError Scan :=
  if s.isSet o then .error (.setTwice o)
  else if value.isEmpty then .error (.valueMissing o)
  else .ok { s with values := s.values ++ [(o, value)] }

/-- Takes in the setting that was found last. -/
def settle (s : Scan) : Except ArgumentError Scan :=
  match s.pending with
  | none => .ok s
  | some ⟨o, none⟩ => .error (.valueMissing o)
  | some ⟨o, some value⟩ => { s with pending := none }.set o value

/-- The settings that count as used when an unknown argument is reported. One that was set twice does
    not; one with an empty value does. -/
def used (s : Scan) : List Switch :=
  let names := s.values.map fun (o, _) => Switch.setting o
  match s.pending with
  | some ⟨o, some _⟩ =>
    if s.isSet o then names.filter (· ≠ .setting o) else names ++ [.setting o]
  | _ => names

/-- The report on an unknown long name. -/
def unknownName (s : Scan) (name : List Char) : ArgumentError :=
  let meant := Switch.similar? name
  let used := s.used ++ (meant.toList.filter (!s.used.contains ·))
  .unexpected ("--" ++ String.ofList name) meant used

/-- The report on any other unknown argument. -/
def unknown (argument : String) : ArgumentError := .unexpected argument none []

/-- Finds a setting, with its value if that stands in the same argument. -/
def find (s : Scan) (o : Setting) (value : Option String) : Except ArgumentError Scan := do
  let s ← s.settle
  match value with
  | none => return { s with pending := some ⟨o, none⟩ }
  | some v => s.set o v

/-- Reads an argument after its two hyphens. -/
def readLong (s : Scan) (text : List Char) : Except ArgumentError (Scan ⊕ Request) :=
  let name := text.takeWhile (· ≠ '=')
  let value := match text.dropWhile (· ≠ '=') with
    | [] => none
    | _ :: v => some (String.ofList v)
  match Switch.all.find? (·.name.toList = name) with
  | none => .error (s.unknownName name)
  | some (.setting o) => (s.find o value).map .inl
  | some (.inquiry q) => match value with
    | some v => .error (.valueUnwanted v q)
    | none => s.settle.map fun _ => .inr (match q with
      | .help => .help true
      | .version => .version)

/-- Reads an argument after its hyphen: a letter and what follows it. -/
def readShort (s : Scan) (letter : Char) (text : List Char) :
    Except ArgumentError (Scan ⊕ Request) :=
  match Switch.all.find? (·.letter? = some letter) with
  | none => .error (unknown ("-" ++ letter.toString))
  | some (.setting o) =>
    let value := match text with
      | [] => none
      | '=' :: v => some (String.ofList v)
      | v => some (String.ofList v)
    (s.find o value).map .inl
  | some (.inquiry q) => s.settle.map fun _ => .inr (match q with
      | .help => .help false
      | .version => .version)

/-- Reads a value for the setting found last. -/
def readValue (s : Scan) (argument : String) : Except ArgumentError Scan :=
  match s.pending with
  | some ⟨o, none⟩ => .ok { s with pending := some ⟨o, some argument⟩ }
  | _ => .error (unknown argument)

/-- Reads arguments up to the end, or up to a request for something else than a run. -/
def readAll (s : Scan) : List String → Except ArgumentError Request
  | [] => s.settle.map fun s => .run s.values
  | argument :: rest =>
    match argument.toList with
    | ['-', '-'] => match rest with
      | [] => s.settle.map fun s => .run s.values
      | next :: _ => .error (unknown next)
    | '-' :: '-' :: text => do
      match ← s.readLong text with
      | .inl s => readAll s rest
      | .inr request => return request
    | '-' :: letter :: text => do
      match ← s.readShort letter text with
      | .inl s => readAll s rest
      | .inr request => return request
    | _ => do readAll (← s.readValue argument) rest

end Scan

/-- **What the arguments ask for.** -/
def readArguments (arguments : List String) : Except ArgumentError Request :=
  Scan.empty.readAll arguments

end RootAuthority.CommandLine
