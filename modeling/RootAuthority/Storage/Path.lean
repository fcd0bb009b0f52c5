import RootAuthority.Text.Separated

/-!
# Path texts

A path is a text in which slashes separate names. Joining (`Path.join`) puts one slash between two
texts, unless the first already ends in one or is empty; an absolute second text replaces the first.

`Path.names` gives every piece between slashes, empty pieces included, as a directory walk needs
them. `Path.ancestors` gives the path and the paths above it, innermost first, as the creation of a
chain of directories needs them: empty pieces and inner dots do not count as steps there, and the
empty path is not listed.
-/

namespace RootAuthority

/-- A path, as written. -/
abbrev Path := String

namespace Path

/-- The pieces of a path between slashes. -/
def names (p : Path) : List String := (Text.pieces '/' p.toList).map String.ofList

/-- The path starts at the root directory. -/
def isAbsolute (p : Path) : Bool := p.toList.head? = some '/'

/-- **The path `q` seen from the directory `p`.** -/
def join (p q : Path) : Path :=
  if isAbsolute q then q
  else if p.isEmpty ∨ p.toList.getLast? = some '/' then p ++ q
  else p ++ "/" ++ q

/-- The names that count as steps: no empty piece, and a dot only at the start of a relative
    path. -/
def steps (p : Path) : List String :=
  match names p with
  | [] => []
  | first :: rest =>
    let inner := rest.filter fun n => n ≠ "" ∧ n ≠ "."
    if first = "" then inner else first :: inner

/-- A path text made of names below a start. -/
def ofSteps (absolute : Bool) (ns : List String) : Path :=
  (if absolute then "/" else "") ++ "/".intercalate ns

/-- **The path and the paths above it**, innermost first, without the empty path. -/
def ancestors (p : Path) : List Path :=
  let ns := steps p
  let below := (List.range ns.length).map fun k => ofSteps (isAbsolute p) (ns.take (ns.length - k))
  match below with
  | [] => if isAbsolute p then [p] else []
  | _ :: above => p :: above ++ (if isAbsolute p then ["/"] else [])

end Path

end RootAuthority
