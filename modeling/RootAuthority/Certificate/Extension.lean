import RootAuthority.Certificate.Basic

/-!
# Extensions of certificates

An extension is an object identifier, a mark and a value in octets. Three kinds are looked at: the
key identifier of the holder, the alternative names of the holder, and the basic constraints that
mark the holder as an authority. A value that does not have the form of its kind is passed over. Of
several key identifiers the last one counts, alternative names add up, and basic constraints count
only where there is one extension of that kind.
-/

namespace RootAuthority

open Der

/-- An extension of a certificate. -/
structure Extension where
  kind : ObjectId
  value : Octets
deriving DecidableEq, Repr

/-- A name by which the holder of a certificate is also known. -/
inductive GeneralName
  | dns (name : String)
  /-- A name of another kind. -/
  | other
deriving DecidableEq, Repr

namespace Extension

/-! ## 1. Reading extensions -/

/-- Skips the mark that an extension is critical, if it is there. -/
def skipMark (bs : Octets) : Octets :=
  match readElementIndefinite bs with
  | some (e, rest) => if e.tag.number = Tag.boolean ∧ e.content.length = 1 then rest else bs
  | none => bs

/-- Reads an extension; what follows its value is not looked at. -/
def read (bs : Octets) : Option (Extension × Octets) := do
  let (e, rest) ← readElement bs
  if e.tag.number ≠ Tag.sequence then none
  else
    let (kind, inner) ← readElement e.content
    if kind.tag.constructed then none
    else
      let (value, _) ← readElement (skipMark inner)
      if value.tag.number = Tag.octetString ∧ value.tag.constructed = false then
        return (⟨kind.content, value.content⟩, rest)
      else none

/-- Reads items up to the end of the octets; `fuel` is at least their number. -/
def readAll {α : Type} (item : Octets → Option (α × Octets)) :
    (fuel : Nat) → Octets → Option (List α)
  | _, [] => some []
  | 0, _ => none
  | fuel + 1, bs => do
    let (a, rest) ← item bs
    let more ← readAll item fuel rest
    return a :: more

/-! ## 2. Key identifiers -/

/-- The key identifier in the value of an extension. -/
def keyId? (value : Octets) : Option Octets := do
  let (e, _) ← readElement value
  if e.tag.number = Tag.octetString ∧ e.tag.constructed = false then return e.content else none

/-! ## 3. Alternative names -/

/-- The name is UTF-8 text. -/
def isText (bs : Octets) : Bool := bs.toText?.isSome

/-- Reads one alternative name by the number of its tag. -/
def readGeneralName (bs : Octets) : Option (GeneralName × Octets) := do
  let (e, rest) ← readElement bs
  if e.tag.cls ≠ .contextSpecific then none
  else match e.tag.number with
    | 0 => do
      let (kind, _) ← readElement e.content
      if kind.tag.constructed then none else return (.other, rest)
    | 2 => return (.dns (← e.content.toText?), rest)
    | 1 | 6 => if isText e.content then return (.other, rest) else none
    | 4 => match ← Name.read e.content with
      | (_, []) => return (.other, rest)
      | _ => none
    | 3 | 5 | 7 | 8 => return (.other, rest)
    | _ => none

/-- The alternative names in the value of an extension; all of them have to be readable. -/
def generalNames? (value : Octets) : Option (List GeneralName) := do
  let (e, _) ← readElement value
  if e.tag.number ≠ Tag.sequence then none
  else readAll readGeneralName e.content.length e.content

/-- The DNS names among alternative names. -/
def dnsNames (names : List GeneralName) : List String :=
  names.filterMap fun
    | .dns name => some name
    | .other => none

/-! ## 4. Small numbers and basic constraints -/

/-- A non-negative integer of at most 32 bits in its shortest form. -/
def isWord (e : Element) : Bool :=
  e.tag = Tag.primitive Tag.integer && match e.content with
    | [] => false
    | [b] => b < 128
    | b :: c :: rest =>
      b < 128 && (b ≠ 0 || 128 ≤ c) && Octets.toNat (b :: c :: rest) < 0x1_0000_0000

/-- The item is a truth value. -/
def isMark (e : Element) : Bool :=
  e.tag.cls = .universal && e.tag.number = Tag.boolean && e.content.length = 1

/-- The item is a non-negative integer of at most 32 bits, with any number of zeros in front. -/
def isBound (e : Element) : Bool :=
  e.tag = Tag.primitive Tag.integer && e.content.headD 0 < 128
    && (e.content.dropWhile (· = 0)).length ≤ 4

/-- **The mark in the value of basic constraints**: an optional truth value and an optional bound. -/
def authorityMark? (value : Octets) : Option Bool := do
  let (e, _) ← readElement value
  if e.tag.number ≠ Tag.sequence ∨ e.tag.constructed = false then none
  else match ← readAll readElementIndefinite e.content.length e.content with
    | [] => return false
    | [item] =>
      if isMark item then return item.content ≠ [0]
      else if isBound item then return false
      else none
    | [mark, bound] => if isMark mark ∧ isBound bound then return mark.content ≠ [0] else none
    | _ => none

/-! ## 5. What the extensions say together -/

/-- The last readable key identifier. -/
def subjectKeyId? (es : List Extension) : Option Octets :=
  (es.filterMap fun e =>
    if e.kind = ObjectId.subjectKeyIdentifier then keyId? e.value else none).getLast?

/-- The DNS names of all readable alternative names. -/
def allDnsNames (es : List Extension) : List String :=
  es.flatMap fun e =>
    if e.kind = ObjectId.subjectAlternativeName then
      ((generalNames? e.value).map dnsNames).getD []
    else []

/-- The holder is marked as an authority by a readable and only extension for it. -/
def marksAuthority (es : List Extension) : Bool :=
  match es.filter fun e => e.kind = ObjectId.basicConstraints with
  | [e] => (authorityMark? e.value).getD false
  | _ => false

end Extension

end RootAuthority
