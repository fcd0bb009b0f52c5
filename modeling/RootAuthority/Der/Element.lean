import RootAuthority.Octets

/-!
# Elements: tag, length and contents

The encoding of certificates and keys is made of elements. An element starts with a tag, goes on
with the length of its contents, and ends with the contents, which for a constructed element are
again elements.

* `Element.encode` writes an element with the shortest length field.
* `readElement` reads an element in front of further octets. It is liberal about the length field,
  which may be longer than needed, and about tag numbers, which may be written in the long form
  although the short one would do; it never reads past the end and refuses indefinite lengths.
* `readElementIndefinite` also reads contents that are closed by an end marker instead of being
  measured.
-/

namespace RootAuthority.Der

/-! ## 1. Tags -/

/-- The class of a tag. -/
inductive TagClass
  | universal
  | application
  | contextSpecific
  | privateUse
deriving DecidableEq, Repr

namespace TagClass

/-- The class as the two high bits of a tag. -/
def code : TagClass → Nat
  | universal => 0
  | application => 1
  | contextSpecific => 2
  | privateUse => 3

/-- The class spelled by two bits. -/
def ofCode : Nat → TagClass
  | 0 => universal
  | 1 => application
  | 2 => contextSpecific
  | _ => privateUse

end TagClass

/-- What kind of element this is. -/
structure Tag where
  cls : TagClass
  constructed : Bool
  number : Nat
deriving DecidableEq, Repr

namespace Tag

/-- Numbers of universal tags. -/
def boolean : Nat := 1
def integer : Nat := 2
def bitString : Nat := 3
def octetString : Nat := 4
def null : Nat := 5
def objectId : Nat := 6
def utf8String : Nat := 12
def sequence : Nat := 16
def set : Nat := 17
def numericString : Nat := 18
def printableString : Nat := 19
def ia5String : Nat := 22
def utcTime : Nat := 23
def generalizedTime : Nat := 24
def bmpString : Nat := 30

/-- A universal tag of an element that is not made of elements. -/
def primitive (number : Nat) : Tag := ⟨.universal, false, number⟩

/-- A universal tag of an element made of elements. -/
def composite (number : Nat) : Tag := ⟨.universal, true, number⟩

/-- A tag whose meaning the surrounding element gives. -/
def context (constructed : Bool) (number : Nat) : Tag := ⟨.contextSpecific, constructed, number⟩

/-- The single octet of a tag with a number below 31. -/
def octet (t : Tag) : UInt8 :=
  UInt8.ofNat (t.cls.code * 64 + (if t.constructed then 32 else 0) + t.number)

end Tag

/-! ## 2. Writing -/

/-- An element with its contents. -/
structure Element where
  tag : Tag
  content : Octets
deriving DecidableEq, Repr

/-- The length field: one octet below 128, else a count of octets and the length in as few as
    possible. -/
def encodeLength (n : Nat) : Octets :=
  if n < 128 then [UInt8.ofNat n]
  else
    let bs := Octets.ofNatMin n
    UInt8.ofNat (128 + bs.length) :: bs

/-- **The octets of an element** with a tag number below 31. -/
def Element.encode (e : Element) : Octets := e.tag.octet :: encodeLength e.content.length ++ e.content

/-- The octets of an element that is not made of elements. -/
def primitive (number : Nat) (content : Octets) : Octets :=
  Element.encode ⟨Tag.primitive number, content⟩

/-- The octets of an element made of the given parts. -/
def composite (number : Nat) (parts : List Octets) : Octets :=
  Element.encode ⟨Tag.composite number, parts.flatten⟩

/-- The octets of a sequence. -/
def sequence (parts : List Octets) : Octets := composite Tag.sequence parts

/-- An unsigned number with a zero octet in front where its first bit is set. -/
def integerContent (n : Nat) : Octets :=
  match Octets.ofNatMin n with
  | [] => [0]
  | b :: bs => if b < 128 then b :: bs else 0 :: b :: bs

/-- The octets of an unsigned integer. -/
def integer (n : Nat) : Octets := primitive Tag.integer (integerContent n)

/-! ## 3. Reading -/

/-- The length field of an element. -/
inductive LengthField
  | definite (n : Nat)
  | indefinite
deriving DecidableEq, Repr

/-- The number of a tag in the long form, seven bits an octet, of at most `k` octets; of a number
    past 32 bits the low bits count. -/
def readTagNumber : (k : Nat) → (n : Nat) → Octets → Option (Nat × Octets)
  | 0, _, _ => none
  | _ + 1, _, [] => none
  | k + 1, n, b :: bs =>
    let n := (n * 128 + b.toNat % 128) % 0x1_0000_0000
    if b < 128 then some (n, bs) else readTagNumber k n bs

/-- Reads a tag. -/
def readTag : Octets → Option (Tag × Octets)
  | [] => none
  | b :: bs =>
    let cls := TagClass.ofCode (b.toNat / 64)
    let constructed := b.toNat / 32 % 2 = 1
    if b.toNat % 32 = 31 then
      (readTagNumber 5 0 bs).map fun (n, rest) => (⟨cls, constructed, n⟩, rest)
    else some (⟨cls, constructed, b.toNat % 32⟩, bs)

/-- Reads a length field of any width; the length has to fit 64 bits. -/
def readLength : Octets → Option (LengthField × Octets)
  | [] => none
  | b :: bs =>
    if b < 128 then some (.definite b.toNat, bs)
    else if b = 128 then some (.indefinite, bs)
    else if b = 255 then none
    else do
      let (field, rest) ← Octets.splitAt? (b.toNat - 128) bs
      let n := Octets.toNat field
      if n < 0x1_0000_0000_0000_0000 then return (.definite n, rest) else none

/-- **Reads an element** in front of further octets. -/
def readElement (bs : Octets) : Option (Element × Octets) := do
  let (tag, bs) ← readTag bs
  match ← readLength bs with
  | (.definite n, bs) =>
    let (content, rest) ← Octets.splitAt? n bs
    return (⟨tag, content⟩, rest)
  | (.indefinite, _) => none

/-- Skips elements up to and including an end marker. `depth` bounds how far indefinite lengths may
    be nested, `fuel` is at least the number of octets. -/
def skipToEnd : (fuel depth : Nat) → Octets → Option Octets
  | 0, _, _ => none
  | fuel + 1, depth, bs => do
    if depth ≤ 1 then none
    else
      let (tag, bs) ← readTag bs
      match ← readLength bs with
      | (.definite n, bs) =>
        if n = 0 ∧ tag.number = 0 then return bs
        else
          let (_, rest) ← Octets.splitAt? n bs
          skipToEnd fuel depth rest
      | (.indefinite, bs) =>
        if tag.constructed then
          let rest ← skipToEnd fuel (depth - 1) bs
          skipToEnd fuel depth rest
        else none

/-- How deep indefinite lengths may be nested. -/
def nestingLimit : Nat := 50

/-- Reads an element whose contents may be closed by an end marker of two octets. -/
def readElementIndefinite (bs : Octets) : Option (Element × Octets) := do
  let (tag, bs) ← readTag bs
  match ← readLength bs with
  | (.definite n, bs) =>
    let (content, rest) ← Octets.splitAt? n bs
    return (⟨tag, content⟩, rest)
  | (.indefinite, bs) =>
    if tag.constructed then
      let rest ← skipToEnd (bs.length + 1) nestingLimit bs
      return (⟨tag, bs.take (bs.length - rest.length - 2)⟩, rest)
    else none

end RootAuthority.Der
