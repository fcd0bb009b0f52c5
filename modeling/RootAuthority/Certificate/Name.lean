import RootAuthority.Der.ObjectId

/-!
# Distinguished names

A name is a sequence of relative names, each a non-empty set of attributes; an attribute is an
object identifier and a value. `Name.read` reads a name and `Name.encode` writes one; a name is read
up to the first relative name that does not fit, and what follows that is not looked at.

`Name.text` shows a name in one line, such as `CN=Example, O=Example Org`. Values that are texts are
shown as they are, all others as the hexadecimal digits of their octets. `Name.firstText?` looks up
the first attribute of a kind; it answers only if that attribute is a text in one of the four kinds
of string whose octets can be taken as they are.
-/

namespace RootAuthority

open Der

/-- One attribute of a name. -/
structure Attribute where
  kind : ObjectId
  value : Element
deriving DecidableEq, Repr

/-- The attributes that make up one level of a name. -/
abbrev RelativeName := List Attribute

/-- A distinguished name, the outermost level first. -/
abbrev Name := List RelativeName

/-! ## 1. Reading and writing -/

namespace Attribute

/-- An attribute whose value is a UTF-8 text. -/
def ofText (kind : ObjectId) (text : String) : Attribute :=
  ⟨kind, ⟨Tag.primitive Tag.utf8String, Octets.ofText text⟩⟩

/-- The octets of an attribute. -/
def encode (a : Attribute) : Octets := sequence [primitive Tag.objectId a.kind, a.value.encode]

/-- Reads an attribute: a sequence of an identifier and a value. Whatever element comes first counts
    as the identifier as long as it is not made of elements. -/
def read (bs : Octets) : Option (Attribute × Octets) := do
  let (e, rest) ← readElement bs
  if e.tag.number ≠ Tag.sequence then none
  else
    let (kind, inner) ← readElement e.content
    if kind.tag.constructed then none
    else
      let (value, _) ← readElement inner
      return (⟨kind.content, value⟩, rest)

end Attribute

namespace Name

/-- Reads items up to the first that does not fit; `fuel` is at least the number of octets. -/
def readWhile {α : Type} (item : Octets → Option (α × Octets)) : (fuel : Nat) → Octets → List α
  | 0, _ => []
  | fuel + 1, bs => match item bs with
    | none => []
    | some (a, rest) => a :: readWhile item fuel rest

/-- Reads one level of a name, a set with at least one attribute. -/
def readRelative (bs : Octets) : Option (RelativeName × Octets) := do
  let (e, rest) ← readElement bs
  if e.tag.number ≠ Tag.set then none
  else match readWhile Attribute.read e.content.length e.content with
    | [] => none
    | attributes => return (attributes, rest)

/-- **Reads a name**, a sequence of levels. -/
def read (bs : Octets) : Option (Name × Octets) := do
  let (e, rest) ← readElement bs
  if e.tag.number ≠ Tag.sequence then none
  else return (readWhile readRelative e.content.length e.content, rest)

/-- **The octets of a name.** -/
def encode (n : Name) : Octets :=
  sequence (n.map fun level => composite Tag.set (level.map Attribute.encode))

/-! ## 2. One-line text -/

/-- Short names of the kinds of attribute. -/
def shortNames : List (ObjectId × String) :=
  [(ObjectId.commonName, "CN"),
   (ObjectId.ofArcs [2, 5, 4, 6], "C"),
   (ObjectId.ofArcs [2, 5, 4, 7], "L"),
   (ObjectId.ofArcs [2, 5, 4, 8], "ST"),
   (ObjectId.organizationName, "O"),
   (ObjectId.ofArcs [2, 5, 4, 11], "OU"),
   (ObjectId.ofArcs [0, 9, 2342, 19200300, 100, 1, 25], "DC"),
   (ObjectId.ofArcs [1, 2, 840, 113549, 1, 9, 1], "Email"),
   (ObjectId.ofArcs [2, 5, 4, 4], "surname"),
   (ObjectId.ofArcs [2, 5, 4, 5], "serialNumber"),
   (ObjectId.ofArcs [2, 5, 4, 9], "streetAddress"),
   (ObjectId.ofArcs [2, 5, 4, 12], "title"),
   (ObjectId.ofArcs [2, 5, 4, 13], "description"),
   (ObjectId.ofArcs [2, 5, 4, 15], "businessCategory"),
   (ObjectId.ofArcs [2, 5, 4, 17], "postalCode"),
   (ObjectId.ofArcs [2, 5, 4, 41], "name"),
   (ObjectId.ofArcs [2, 5, 4, 42], "givenName"),
   (ObjectId.ofArcs [2, 5, 4, 43], "initials"),
   (ObjectId.ofArcs [2, 5, 4, 44], "generationQualifier"),
   (ObjectId.ofArcs [2, 5, 4, 46], "dnQualifier"),
   (ObjectId.ofArcs [0, 9, 2342, 19200300, 100, 1, 1], "uid"),
   (ObjectId.ofArcs [1, 3, 6, 1, 4, 1, 311, 60, 2, 1, 3], "msJurisdictionCountry")]

/-- How a kind of attribute is shown: by its short name, else by its arcs. -/
def kindText (kind : ObjectId) : String :=
  match shortNames.lookup kind with
  | some short => short
  | none => "OID(" ++ kind.display ++ ")"

/-- The tag numbers of strings whose octets are shown as UTF-8 text. -/
def textTags : List Nat := [7, 12, 18, 19, 20, 21, 22, 25, 26, 27]

/-- An octet as two uppercase hexadecimal digits. -/
def upperHex (b : UInt8) : String :=
  String.ofList ((Octets.toHex [b]).toList.map Char.toUpper)

/-- How a value is shown; a string that is not in its own encoding cannot be. -/
def valueText? (value : Element) : Option String :=
  if textTags.contains value.tag.number then value.content.toText?
  else if value.tag.number = Tag.bmpString then value.content.utf16Text?
  else some (String.join (value.content.map upperHex))

/-- One level of a name in text. -/
def levelText? (level : RelativeName) : Option String :=
  (level.mapM fun a => (valueText? a.value).map fun v => kindText a.kind ++ "=" ++ v).map
    (" + ".intercalate ·)

/-- The text that stands for a name with a value that cannot be shown. -/
def unreadable : String := "<X509Error: Invalid X.509 name>"

/-- **A name in one line.** -/
def text (n : Name) : String :=
  match n.mapM levelText? with
  | some levels => ", ".intercalate levels
  | none => unreadable

/-! ## 3. Looking up attributes -/

/-- The tag numbers of strings that can be taken as text octet by octet. -/
def plainTextTags : List Nat :=
  [Tag.numericString, Tag.printableString, Tag.utf8String, Tag.ia5String]

/-- **The text of the first attribute of a kind**, if that attribute is a plain text. -/
def firstText? (n : Name) (kind : ObjectId) : Option String :=
  match n.flatten.find? fun a => a.kind = kind with
  | none => none
  | some a => if plainTextTags.contains a.value.tag.number then a.value.content.toText? else none

end Name

end RootAuthority
