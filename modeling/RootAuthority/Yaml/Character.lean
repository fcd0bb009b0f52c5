/-!
# Characters of YAML documents

The classes of characters that the scanning of a document distinguishes, and positions in a
document. A position is moved over the text between two places: every character counts one, a line
break starts a new line, and a carriage return with a line feed is one break.
-/

namespace RootAuthority.Yaml

/-- The next-line character. -/
def nextLine : Char := '\u0085'

/-- The line and paragraph separators. -/
def lineSeparator : Char := '\u2028'
def paragraphSeparator : Char := '\u2029'

/-- The mark of byte order, which may start a document. -/
def byteOrderMark : Char := '\ufeff'

/-- The character ends a line. -/
def isBreak (c : Char) : Bool :=
  c = '\n' || c = '\r' || c = nextLine || c = lineSeparator || c = paragraphSeparator

/-- The character separates words within a line. -/
def isBlank (c : Char) : Bool := c = ' ' || c = '\t'

/-- The character may stand in the name of an anchor, a handle or a directive. -/
def isWord (c : Char) : Bool := c.isAlphanum || c = '_' || c = '-'

/-- The character structures lists and mappings in braces and brackets. -/
def isFlowIndicator (c : Char) : Bool := c = ',' || c = '[' || c = ']' || c = '{' || c = '}'

/-- The character may occur in a document. -/
def isReadable (c : Char) : Bool :=
  let n := c.toNat
  n = 0x09 || n = 0x0a || n = 0x0d || (0x20 ≤ n && n ≤ 0x7e) || n = 0x85
    || (0xa0 ≤ n && n ≤ 0xd7ff) || (0xe000 ≤ n && n ≤ 0xfffd) || 0x10000 ≤ n

/-- A line break as it counts in the text of a scalar: a line feed, unless it is a separator. -/
def breakText (c : Char) : Char :=
  if c = lineSeparator ∨ c = paragraphSeparator then c else '\n'

/-- The text is over, or a blank or a line break comes next. -/
def atGap : List Char → Bool
  | [] => true
  | c :: _ => isBlank c || isBreak c

/-- A line of three hyphens or three dots, which separates documents. -/
def atDocumentMark : List Char → Bool
  | '-' :: '-' :: '-' :: rest => atGap rest
  | '.' :: '.' :: '.' :: rest => atGap rest
  | _ => false

/-! ## Positions -/

/-- A place in a document. -/
structure Position where
  /-- Characters before it. -/
  index : Nat
  /-- Lines before it. -/
  line : Nat
  /-- Characters before it in its line. -/
  column : Nat
deriving DecidableEq, Repr

namespace Position

/-- The start of a document. -/
def start : Position := ⟨0, 0, 0⟩

/-- The place after a stretch of text. -/
def after (p : Position) : List Char → Position
  | [] => p
  | '\r' :: '\n' :: rest => after ⟨p.index + 2, p.line + 1, 0⟩ rest
  | c :: rest =>
    after (if isBreak c then ⟨p.index + 1, p.line + 1, 0⟩
      else ⟨p.index + 1, p.line, p.column + 1⟩) rest

end Position

end RootAuthority.Yaml
