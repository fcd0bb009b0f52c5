import RootAuthority.Octets

/-!
# Base64 and the textual form of certificates

Base64 writes three octets as four characters; one or two octets at the end are filled up with
equals signs. The textual form of a certificate puts the base64 text in lines of sixty-four
characters between two boundary lines, each line ended by a line feed.
-/

namespace RootAuthority

namespace Base64

/-- The character for a number below 64. -/
def digit (n : Nat) : Char :=
  if n < 26 then Char.ofNat (65 + n)
  else if n < 52 then Char.ofNat (71 + n)
  else if n < 62 then Char.ofNat (n - 4)
  else if n = 62 then '+'
  else '/'

/-- The number below 64 for a character. -/
def value? (c : Char) : Option Nat :=
  if 'A' ≤ c ∧ c ≤ 'Z' then some (c.toNat - 65)
  else if 'a' ≤ c ∧ c ≤ 'z' then some (c.toNat - 71)
  else if '0' ≤ c ∧ c ≤ '9' then some (c.toNat + 4)
  else if c = '+' then some 62
  else if c = '/' then some 63
  else none

/-- **The base64 text of octets.** -/
def encode : Octets → List Char
  | [] => []
  | [a] => [digit (a.toNat / 4), digit (a.toNat % 4 * 16), '=', '=']
  | [a, b] =>
    [digit (a.toNat / 4), digit (a.toNat % 4 * 16 + b.toNat / 16), digit (b.toNat % 16 * 4), '=']
  | a :: b :: c :: rest =>
    digit (a.toNat / 4) :: digit (a.toNat % 4 * 16 + b.toNat / 16)
      :: digit (b.toNat % 16 * 4 + c.toNat / 64) :: digit (c.toNat % 64) :: encode rest

/-- **The octets of a base64 text**; padding is required and its unused bits are zero. -/
def decode? : List Char → Option Octets
  | [] => some []
  | w :: x :: y :: z :: rest => do
    let a ← value? w
    let b ← value? x
    if y = '=' then
      if z = '=' ∧ rest = [] ∧ b % 16 = 0 then return [UInt8.ofNat (a * 4 + b / 16)] else none
    else
      let c ← value? y
      if z = '=' then
        if rest = [] ∧ c % 4 = 0 then
          return [UInt8.ofNat (a * 4 + b / 16), UInt8.ofNat (b % 16 * 16 + c / 4)]
        else none
      else
        let d ← value? z
        let more ← decode? rest
        return UInt8.ofNat (a * 4 + b / 16) :: UInt8.ofNat (b % 16 * 16 + c / 4)
          :: UInt8.ofNat (c % 4 * 64 + d) :: more
  | _ => none

end Base64

namespace Pem

/-- The length of a full line. -/
def lineLength : Nat := 64

/-- Lines of `lineLength` characters; a shorter last line is kept, an empty one is not. -/
def lines (text : List Char) : List (List Char) :=
  if _ : text = [] then []
  else
    text.take lineLength :: lines (text.drop lineLength)
termination_by text.length
decreasing_by
  have : 0 < text.length := List.length_pos_iff.mpr (by assumption)
  simp only [List.length_drop, lineLength]
  omega

/-- The line before the certificate. -/
def beginLine : String := "-----BEGIN CERTIFICATE-----"

/-- The line after the certificate. -/
def endLine : String := "-----END CERTIFICATE-----"

/-- The body lines for the octets of a certificate. -/
def bodyLines (der : Octets) : List String := (lines (Base64.encode der)).map String.ofList

/-- **The textual form of a certificate.** -/
def certificateText (der : Octets) : String :=
  String.join ((beginLine :: bodyLines der ++ [endLine]).map (· ++ "\n"))

end Pem

end RootAuthority
