import RootAuthority.Config.Basic
import RootAuthority.Config.Scalar
import RootAuthority.Storage.FileSystem
import RootAuthority.Yaml.Grammar

/-!
# Configuration documents

A configuration is written as a YAML document: a mapping of settings, two of which are sections with
settings of their own. A setting that is left out has its default, and so have all settings of a
section that is left out or empty. Settings that are not known are skipped whatever they hold. A known
one may be set once.

`Config.parse` reads a document and checks the rules of a configuration on the result.
-/

namespace RootAuthority.Config

open Yaml (Node)

/-- The labels of a document and the nodes they belong to. -/
abbrev Labels := List (Nat × Node)

/-! ## 1. Sections -/

/-- The settings of a section, by name. -/
def settings? (labels : Labels) (section_ : Node) : Option (List (String × Node)) :=
  match section_.follow labels with
  | .mapping _ entries => entries.mapM fun (key, value) =>
      (textOf? (key.follow labels)).map fun name => (name, value.follow labels)
  | .scalar _ _ style text => if style = .plain ∧ text.isEmpty then some [] else none
  | _ => none

/-- **The value of a setting**: its default if it is left out, nothing if it is set twice or not to a
    value of its kind. -/
def setting? {α : Type} (settings : List (String × Node)) (name : String) (default : α)
    (read : Node → Option α) : Option α :=
  match settings.filter (·.1 = name) with
  | [] => some default
  | [(_, value)] => read value
  | _ => none

/-! ## 2. The two sections -/

/-- The texts of a sequence. -/
def textsOf? (labels : Labels) : Node → Option (List String)
  | .sequence _ items => items.mapM fun item => textOf? (item.follow labels)
  | .scalar _ _ style text => if style = .plain ∧ text.isEmpty then some [] else none
  | _ => none

/-- Reads the section on storage. -/
def storageOf? (labels : Labels) (section_ : Node) : Option StorageSettings := do
  let settings ← settings? labels section_
  let d := StorageSettings.default
  return {
    namespaceSegment := ← setting? settings "namespace" d.namespaceSegment textOf?
    directory := ← setting? settings "directory" d.directory optionalTextOf?
    certificateFile := ← setting? settings "cert_file" d.certificateFile textOf?
    keyFile := ← setting? settings "key_file" d.keyFile textOf? }

/-- Reads the section on the holder of the certificate. -/
def subjectOf? (labels : Labels) (section_ : Node) : Option Identity := do
  let settings ← settings? labels section_
  let d := Identity.default
  return {
    commonName := ← setting? settings "common_name" d.commonName textOf?
    organization := ← setting? settings "organization" d.organization textOf?
    dnsNames := ← setting? settings "dns_names" d.dnsNames (textsOf? labels) }

/-! ## 3. The whole -/

/-- Reads the settings of a document, whatever rules they break. -/
def ofDocument? (document : Node) : Option Config := do
  let labels := document.labelled
  let settings ← settings? labels document
  let d := Config.default
  return {
    version := ← setting? settings "version" d.version numberOf?
    storage := ← setting? settings "storage" d.storage (storageOf? labels)
    subject := ← setting? settings "subject" d.subject (subjectOf? labels)
    verifyKeyBinding := ← setting? settings "verify_key_binding" d.verifyKeyBinding truthOf? }

/-- **Reads a configuration**, which has to keep the rules. -/
def parse (text : String) : Except ConfigError Config :=
  match (Yaml.read? text).bind ofDocument? with
  | none => .error .malformed
  | some c => match c.violation? with
    | some broken => .error (.invalid broken)
    | none => .ok c

/-- Reads the configuration in a file. -/
def load (files : FileSystem) (path : Path) : Except ConfigError Config :=
  match files.readText path with
  | .error cause => .error (.unreadable cause)
  | .ok text => parse text

end RootAuthority.Config
