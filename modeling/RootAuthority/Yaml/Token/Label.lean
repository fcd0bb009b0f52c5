import RootAuthority.Yaml.Token.Gap

/-!
# Anchors, tags and directives

* An anchor gives a node a name, and an alias stands for the node of that name.
* A tag says what kind of value a node is: a URI in angle brackets, or the end of one after a handle.
* A directive before a document gives the version, or says what a handle stands for.

A URI is read as octets, since it may spell them by escapes. It counts up to its first zero octet.
-/

namespace RootAuthority.Yaml

/-! ## Names -/

/-- A name may end here. -/
def endsName : List Char → Bool
  | [] => true
  | c :: _ => isBlank c || isBreak c || ['?', ':', ',', ']', '}', '%', '@', '\x60'].contains c

/-- **Reads the name** of an anchor or an alias. -/
def readName (text : List Char) : Option (String × List Char) :=
  let name := text.takeWhile isWord
  let rest := text.dropWhile isWord
  if name.isEmpty ∨ endsName rest = false then none else some (String.ofList name, rest)

/-! ## URIs -/

/-- The character may stand in a URI. -/
def isUriCharacter (bracketed : Bool) (c : Char) : Bool :=
  isWord c || [';', '/', '?', ':', '@', '&', '=', '+', '$', '.', '!', '~', '*', '\'', '(', ')'].contains c
    || (bracketed && [',', '[', ']'].contains c)

/-- How many octets have to follow an escaped octet, `pending` of which are still missing. -/
def escapesLeft? (pending : Nat) (octet : Nat) : Option Nat :=
  if pending = 0 then
    if octet < 0x80 then some 0
    else if octet < 0xc0 then none
    else if octet < 0xe0 then some 1
    else if octet < 0xf0 then some 2
    else if octet < 0xf8 then some 3
    else none
  else if 0x80 ≤ octet ∧ octet < 0xc0 then some (pending - 1)
  else none

/-- Reads characters of a URI; `pending` octets have to follow as escapes. -/
def readUriFrom (bracketed : Bool) : (pending : Nat) → List Char → Option (Octets × List Char)
  | pending, '%' :: high :: low :: rest => do
    let octet := (← Octets.hexValue? high) * 16 + (← Octets.hexValue? low)
    let (more, rest) ← readUriFrom bracketed (← escapesLeft? pending octet) rest
    return (UInt8.ofNat octet :: more, rest)
  | pending, text =>
    if pending ≠ 0 ∨ text.head? = some '%' then none
    else match text with
      | [] => some ([], [])
      | c :: rest =>
        if isUriCharacter bracketed c then
          (readUriFrom bracketed 0 rest).map fun (more, rest) => (UInt8.ofNat c.toNat :: more, rest)
        else some ([], c :: rest)

/-- Reads a URI, which is not empty. -/
def readUri (bracketed : Bool) (text : List Char) : Option (Octets × List Char) := do
  let (uri, rest) ← readUriFrom bracketed 0 text
  if uri.isEmpty then none else return (uri.takeWhile (· ≠ 0), rest)

/-! ## Tags -/

/-- Reads the text between two exclamation marks, of which the first is already read, with the
    second if it is there. -/
def readHandle (text : List Char) : List Char × Bool × List Char :=
  match text.dropWhile isWord with
  | '!' :: rest => (text.takeWhile isWord, true, rest)
  | rest => (text.takeWhile isWord, false, rest)

/-- Reads a tag after its exclamation mark, whatever follows. -/
def readTagBody : List Char → Option (Token × List Char)
  | '<' :: text => do
    let (uri, rest) ← readUri true text
    match rest with
    | '>' :: rest => return (.tag "" uri, rest)
    | _ => none
  | text =>
    let (name, closed, rest) := readHandle text
    if closed then do
      let (suffix, rest) ← readUri false rest
      return (.tag ("!" ++ String.ofList name ++ "!") suffix, rest)
    else do
      let (more, rest) ← readUriFrom false 0 rest
      let suffix := (Octets.ofText (String.ofList name) ++ more).takeWhile (· ≠ 0)
      if suffix.isEmpty then return (.tag "" (Octets.ofText "!"), rest)
      else return (.tag "!" suffix, rest)

/-- **Reads a tag** after its exclamation mark. A gap has to follow, or a comma inside braces or
    brackets. -/
def readTag (flow : Bool) (text : List Char) : Option (Token × List Char) := do
  let (tag, rest) ← readTagBody text
  if atGap rest ∨ (flow ∧ rest.head? = some ',') then return (tag, rest) else none

/-! ## Directives -/

/-- Reads a number of one to nine digits. -/
def readNumber (text : List Char) : Option (Nat × List Char) :=
  let digits := text.takeWhile Char.isDigit
  if digits.isEmpty ∨ 9 < digits.length then none
  else some (digits.foldl (fun n c => n * 10 + (c.toNat - 48)) 0, text.dropWhile Char.isDigit)

/-- Reads the value of a version directive. -/
def readVersion (text : List Char) : Option (Token × List Char) := do
  let (major, rest) ← readNumber (text.dropWhile isBlank)
  match rest with
  | '.' :: rest =>
    let (minor, rest) ← readNumber rest
    return (.version major minor, rest)
  | _ => none

/-- Reads the value of a tag directive. -/
def readTagHandle (text : List Char) : Option (Token × List Char) := do
  match text.dropWhile isBlank with
  | '!' :: rest =>
    let (name, closed, rest) := readHandle rest
    if name.isEmpty = false ∧ closed = false then none
    else if rest.head?.all (!isBlank ·) then none
    else
      let (start, rest) ← readUri true (rest.dropWhile isBlank)
      if atGap rest then
        let mark := if closed then "!" else ""
        return (.tagHandle ("!" ++ String.ofList name ++ mark) start, rest)
      else none
  | _ => none

/-- **Reads a directive** after its percent sign, to the end of its line. -/
def readDirective (text : List Char) : Option (Token × List Char) := do
  let name := text.takeWhile isWord
  let rest := text.dropWhile isWord
  let (directive, rest) ←
    if atGap rest = false then none
    else if name = "YAML".toList then readVersion rest
    else if name = "TAG".toList then readTagHandle rest
    else none
  return (directive, ← endLine? rest)

end RootAuthority.Yaml
