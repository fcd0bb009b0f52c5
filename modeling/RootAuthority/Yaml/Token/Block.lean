import RootAuthority.Yaml.Token.Gap

/-!
# Block scalars

A block scalar takes the lines below its indicator that are indented at least as much as its first
line. A literal one keeps line breaks; a folded one joins lines by spaces, except around lines that
start with a blank. A mark after the indicator says what happens to the line breaks at the end, and
a digit fixes the indentation.
-/

namespace RootAuthority.Yaml

/-- What happens to the line breaks at the end of a block scalar. -/
inductive Chomping
  /-- All are dropped. -/
  | strip
  /-- The first is kept. -/
  | clip
  /-- All are kept. -/
  | keep
deriving DecidableEq, Repr

/-- The marks after the indicator of a block scalar. -/
structure BlockHeader where
  chomping : Chomping
  /-- The indentation relative to the block around; zero if it is found by looking. -/
  increment : Nat
deriving DecidableEq, Repr

namespace BlockHeader

/-- The mark for the end of a block scalar. -/
def chomping? : Char → Option Chomping
  | '+' => some .keep
  | '-' => some .strip
  | _ => none

/-- Reads a digit from one to nine, if a digit comes next. -/
def readIncrement : List Char → Option (Nat × List Char)
  | [] => some (0, [])
  | c :: rest =>
    if c.isDigit then if c = '0' then none else some (c.toNat - 48, rest) else some (0, c :: rest)

/-- Reads a mark for the end, if one comes next. -/
def readChomping : List Char → Chomping × List Char
  | [] => (.clip, [])
  | c :: rest => match chomping? c with
    | some m => (m, rest)
    | none => (.clip, c :: rest)

/-- Reads the marks in either order. -/
def readMarks (text : List Char) : Option (BlockHeader × List Char) := do
  match text.head?.bind chomping? with
  | some m =>
    let (n, rest) ← readIncrement text.tail
    return (⟨m, n⟩, rest)
  | none =>
    let (n, rest) ← readIncrement text
    if n = 0 then return (⟨.clip, 0⟩, rest)
    else
      let (m, rest) := readChomping rest
      return (⟨m, n⟩, rest)

/-- Reads the marks and the rest of their line, which may hold a comment. -/
def read (text : List Char) : Option (BlockHeader × List Char) := do
  let (header, rest) ← readMarks text
  return (header, ← endLine? rest)

end BlockHeader

/-- The place after indentation and empty lines. -/
structure BlockPlace where
  /-- The text of the line breaks on the way. -/
  breaks : List Char
  column : Nat
  /-- The greatest column reached. -/
  widest : Nat
  rest : List Char

/-- Skips empty lines and indentation up to a column, which is still open if it is zero. A tab there
    is refused. -/
def skipIndentation (indent : Nat) : (column widest : Nat) → List Char → Option BlockPlace
  | column, widest, [] => some ⟨[], column, max widest column, []⟩
  | column, widest, '\r' :: '\n' :: rest =>
    (skipIndentation indent 0 (max widest column) rest).map fun p =>
      { p with breaks := '\n' :: p.breaks }
  | column, widest, c :: rest =>
    let inside := indent = 0 ∨ column < indent
    if c = ' ' ∧ inside then skipIndentation indent (column + 1) widest rest
    else if c = '\t' ∧ inside then none
    else if isBreak c then
      (skipIndentation indent 0 (max widest column) rest).map fun p =>
        { p with breaks := breakText c :: p.breaks }
    else some ⟨[], column, max widest column, c :: rest⟩

/-- The line break in front, as it counts in the text, and what follows it. -/
def readBreak : List Char → List Char × List Char
  | '\r' :: '\n' :: rest => (['\n'], rest)
  | [] => ([], [])
  | c :: rest => if isBreak c then ([breakText c], rest) else ([], c :: rest)

/-- Reads the lines of a block scalar. `lead` is the last line break, `breaks` are the empty lines
    after it, and `afterBlank` says that the line before started with a blank; `fuel` is at least the
    number of characters left. -/
def readBlockLines (folded : Bool) (chomping : Chomping) (indent : Nat) : (fuel : Nat) →
    (lead breaks : List Char) → (afterBlank : Bool) → (column : Nat) → List Char →
    Option (List Char × List Char)
  | fuel, lead, breaks, afterBlank, column, text =>
    let tail := (if chomping = .strip then [] else lead) ++ (if chomping = .keep then breaks else [])
    match fuel, text with
    | _, [] => some (tail, [])
    | 0, text => some (tail, text)
    | fuel + 1, c :: rest =>
      if column ≠ indent then some (tail, c :: rest)
      else do
        let blank := isBlank c
        let joint :=
          if folded ∧ lead = ['\n'] ∧ afterBlank = false ∧ blank = false then
            if breaks.isEmpty then [' '] else []
          else lead
        let line := (c :: rest).takeWhile (!isBreak ·)
        let (next, rest) := readBreak ((c :: rest).dropWhile (!isBreak ·))
        let place ← skipIndentation indent 0 0 rest
        let (more, rest) ←
          readBlockLines folded chomping indent fuel next place.breaks blank place.column place.rest
        return (joint ++ breaks ++ line ++ more, rest)

/-- **Reads a block scalar** after its indicator; `inner` is the least column that is inside the block
    around it. -/
def readBlock (folded : Bool) (inner : Nat) (text : List Char) : Option (List Char × List Char) := do
  let (header, rest) ← BlockHeader.read text
  let fixed := if header.increment = 0 then 0 else header.increment + (inner - 1)
  let place ← skipIndentation fixed 0 0 rest
  let indent := if fixed = 0 then max (max place.widest inner) 1 else fixed
  readBlockLines folded header.chomping indent place.rest.length [] place.breaks false place.column
    place.rest

end RootAuthority.Yaml
