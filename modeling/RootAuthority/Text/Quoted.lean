import RootAuthority.Text.Visible

/-!
# Quoted text

A text between double quotes, with the quote, the backslash and every character that is not visible
written as an escape: by a letter for tab, line feed, carriage return and NUL, else by the code
point in braces. `Text.quoted` leaves an apostrophe alone, `Text.quotedPath` escapes it too.
-/

namespace RootAuthority.Text

/-- A code point in lowercase hexadecimal without leading zeros. -/
def hexNumber (n : Nat) : String := String.ofList (Nat.toDigits 16 n)

/-- The escaped form of a character in quoted text. -/
def escapeChar (apostrophe : Bool) (c : Char) : String :=
  if c = '\x00' then "\\0"
  else if c = '\t' then "\\t"
  else if c = '\n' then "\\n"
  else if c = '\r' then "\\r"
  else if c = '"' then "\\\""
  else if c = '\\' then "\\\\"
  else if c = '\'' ∧ apostrophe then "\\'"
  else if isVisible c then c.toString
  else "\\u\x7b" ++ hexNumber c.toNat ++ "\x7d"

/-- **The quoted form of a text.** -/
def quoted (s : String) : String := "\"" ++ String.join (s.toList.map (escapeChar false)) ++ "\""

/-- The quoted form of a path. -/
def quotedPath (s : String) : String := "\"" ++ String.join (s.toList.map (escapeChar true)) ++ "\""

end RootAuthority.Text
