import RootAuthority.Der.ObjectId

/-!
# Elements in key files

Key files are read by the narrow rules for a unique encoding: only known tags, length fields of at
most four octets and in their shortest form, and nothing left over at the end of a sequence.
-/

namespace RootAuthority.Der.Strict

/-- The universal tags that may occur, as octets. -/
def knownUniversal : List UInt8 :=
  [0x01, 0x02, 0x03, 0x04, 0x05, 0x06, 0x09, 0x0a, 0x0c, 0x12, 0x13, 0x14, 0x15, 0x16, 0x17, 0x18,
   0x1a, 0x1e, 0x30, 0x31]

/-- The octet is a tag that may occur. -/
def isTag (b : UInt8) : Bool :=
  if b < 0x40 then knownUniversal.contains b else b.toNat % 32 ≠ 31

/-- The greatest length of contents. -/
def lengthLimit : Nat := 0xfffffff

/-- Reads a length field. -/
def readLength : Octets → Option (Nat × Octets)
  | [] => none
  | b :: bs =>
    if b < 128 then some (b.toNat, bs)
    else if b < 0x81 ∨ 0x84 < b then none
    else do
      let (field, rest) ← Octets.splitAt? (b.toNat - 128) bs
      let n := Octets.toNat field
      if lengthLimit < n ∨ encodeLength n ≠ b :: field then none else return (n, rest)

/-- **Reads an element**: its tag octet and its contents. -/
def readElement : Octets → Option ((UInt8 × Octets) × Octets)
  | [] => none
  | b :: bs =>
    if isTag b then do
      let (n, bs) ← readLength bs
      let (content, rest) ← Octets.splitAt? n bs
      return ((b, content), rest)
    else none

/-- The contents of the element in front, if it has the given tag octet. -/
def readTagged (tag : UInt8) (bs : Octets) : Option (Octets × Octets) := do
  let ((t, content), rest) ← readElement bs
  if t = tag then return (content, rest) else none

/-- The contents of the only element, if it has the given tag octet. -/
def only (tag : UInt8) (bs : Octets) : Option Octets :=
  match readTagged tag bs with
  | some (content, []) => some content
  | _ => none

/-- The unsigned number spelled by the contents of an integer in its only form. -/
def unsigned? : Octets → Option Nat
  | [] => none
  | [b] => if b < 128 then some b.toNat else none
  | b :: c :: rest =>
    if b < 128 ∧ (b ≠ 0 ∨ 128 ≤ c) then some (Octets.toNat (b :: c :: rest)) else none

/-- Reads an unsigned integer. -/
def readUnsigned (bs : Octets) : Option (Nat × Octets) := do
  let (content, rest) ← readTagged 0x02 bs
  return (← unsigned? content, rest)

end RootAuthority.Der.Strict
