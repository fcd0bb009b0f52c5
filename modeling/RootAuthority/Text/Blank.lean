/-!
# Blank characters and blank texts

The characters with the White_Space property of the Unicode standard, of which core's whitespace
characters are a few.
-/

namespace RootAuthority.Text

/-- The character has the White_Space property. -/
def isBlank (c : Char) : Bool :=
  let n := c.toNat
  (9 ≤ n && n ≤ 13) || n == 0x20 || n == 0x85 || n == 0xa0 || n == 0x1680
    || (0x2000 ≤ n && n ≤ 0x200a) || n == 0x2028 || n == 0x2029 || n == 0x202f || n == 0x205f
    || n == 0x3000

/-- The text is empty or has only blank characters. -/
def allBlank (s : String) : Bool := s.toList.all isBlank

end RootAuthority.Text
