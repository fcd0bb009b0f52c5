import RootAuthority.Der.Strict

/-!
# Elements as signature checks read them

Public keys, elliptic-curve signatures and keys to sign with are read with length fields of one to
three octets in their shortest form. A part is asked for by its tag octet, so unknown tags do not
come up.
-/

namespace RootAuthority.Der.Compact

/-- Reads a length field. -/
def readLength : Octets → Option (Nat × Octets)
  | [] => none
  | 0x81 :: a :: rest => if a < 128 then none else some (a.toNat, rest)
  | 0x82 :: a :: b :: rest => if a = 0 then none else some (a.toNat * 256 + b.toNat, rest)
  | b :: rest => if b < 128 then some (b.toNat, rest) else none

/-- The contents of the element in front, if it has the given tag octet. -/
def readTagged (tag : UInt8) : Octets → Option (Octets × Octets)
  | [] => none
  | t :: bs =>
    if t = tag then do
      let (n, bs) ← readLength bs
      Octets.splitAt? n bs
    else none

/-- The contents of the only element, if it has the given tag octet. -/
def only (tag : UInt8) (bs : Octets) : Option Octets :=
  match readTagged tag bs with
  | some (content, []) => some content
  | _ => none

/-- Reads an unsigned integer. -/
def readUnsigned (bs : Octets) : Option (Nat × Octets) := do
  let (content, rest) ← readTagged 0x02 bs
  return (← Strict.unsigned? content, rest)

/-- Reads a positive integer. -/
def readPositive (bs : Octets) : Option (Nat × Octets) := do
  let (n, rest) ← readUnsigned bs
  if n = 0 then none else return (n, rest)

end RootAuthority.Der.Compact
