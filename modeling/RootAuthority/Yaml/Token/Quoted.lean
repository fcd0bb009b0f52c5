import RootAuthority.Octets
import RootAuthority.Yaml.Token.Gap

/-!
# Quoted scalars

In single quotes a quote is written twice and nothing else is special. In double quotes a backslash
starts an escape: a letter for a control character, or a code point in hexadecimal; before a line
break it joins the lines. A line that looks like a separator of documents is refused in both.
-/

namespace RootAuthority.Yaml

/-- The character for a one-letter escape. -/
def letterEscape? : Char → Option Char
  | '0' => some '\x00'
  | 'a' => some '\x07'
  | 'b' => some '\x08'
  | 't' => some '\t'
  | '\t' => some '\t'
  | 'n' => some '\n'
  | 'v' => some '\x0b'
  | 'f' => some '\x0c'
  | 'r' => some '\r'
  | 'e' => some '\x1b'
  | ' ' => some ' '
  | '"' => some '"'
  | '/' => some '/'
  | '\\' => some '\\'
  | 'N' => some nextLine
  | '_' => some '\u00a0'
  | 'L' => some lineSeparator
  | 'P' => some paragraphSeparator
  | _ => none

/-- How many hexadecimal digits follow an escape for a code point. -/
def codeLength? : Char → Option Nat
  | 'x' => some 2
  | 'u' => some 4
  | 'U' => some 8
  | _ => none

/-- Reads so many hexadecimal digits. -/
def readHex : (digits n : Nat) → List Char → Option (Nat × List Char)
  | 0, n, rest => some (n, rest)
  | _ + 1, _, [] => none
  | digits + 1, n, c :: rest => do
    let d ← Octets.hexValue? c
    readHex digits (n * 16 + d) rest

/-- Reads an escape after its backslash. -/
def readEscape : List Char → Option (Char × List Char)
  | [] => none
  | c :: rest =>
    match codeLength? c with
    | some digits => do
      let (n, rest) ← readHex digits 0 rest
      if (0xd800 ≤ n ∧ n ≤ 0xdfff) ∨ 0x10ffff < n then none else return (Char.ofNat n, rest)
    | none => (letterEscape? c).map (·, rest)

/-- Reads a scalar in single quotes after the opening quote; `fuel` is at least the number of
    characters left. -/
def readSingleQuoted : (fuel : Nat) → (lineStart : Bool) → List Char →
    Option (List Char × List Char)
  | 0, _, _ => none
  | fuel + 1, lineStart, text =>
    if lineStart ∧ atDocumentMark text then none
    else match text with
      | [] => none
      | '\'' :: '\'' :: rest => do
        let (more, rest) ← readSingleQuoted fuel false rest
        return ('\'' :: more, rest)
      | '\'' :: rest => some ([], rest)
      | c :: rest =>
        if isBlank c ∨ isBreak c then do
          let (gap, rest) ← Gap.read 0 Gap.start (c :: rest)
          let (more, rest) ← readSingleQuoted fuel (gap.broken ∧ gap.column = 0) rest
          return (gap.text ++ more, rest)
        else do
          let (more, rest) ← readSingleQuoted fuel false rest
          return (c :: more, rest)

/-- Reads a scalar in double quotes after the opening quote; `fuel` is at least the number of
    characters left. -/
def readDoubleQuoted : (fuel : Nat) → (lineStart : Bool) → List Char →
    Option (List Char × List Char)
  | 0, _, _ => none
  | fuel + 1, lineStart, text =>
    if lineStart ∧ atDocumentMark text then none
    else match text with
      | [] => none
      | '"' :: rest => some ([], rest)
      | '\\' :: '\r' :: '\n' :: rest => do
        let (gap, rest) ← Gap.read 0 Gap.escaped rest
        let (more, rest) ← readDoubleQuoted fuel (gap.column = 0) rest
        return (gap.text ++ more, rest)
      | '\\' :: c :: rest =>
        if isBreak c then do
          let (gap, rest) ← Gap.read 0 Gap.escaped rest
          let (more, rest) ← readDoubleQuoted fuel (gap.column = 0) rest
          return (gap.text ++ more, rest)
        else do
          let (e, rest) ← readEscape (c :: rest)
          let (more, rest) ← readDoubleQuoted fuel false rest
          return (e :: more, rest)
      | c :: rest =>
        if isBlank c ∨ isBreak c then do
          let (gap, rest) ← Gap.read 0 Gap.start (c :: rest)
          let (more, rest) ← readDoubleQuoted fuel (gap.broken ∧ gap.column = 0) rest
          return (gap.text ++ more, rest)
        else do
          let (more, rest) ← readDoubleQuoted fuel false rest
          return (c :: more, rest)

end RootAuthority.Yaml
