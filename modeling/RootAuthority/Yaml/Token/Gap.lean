import RootAuthority.Yaml.Token

/-!
# Gaps inside scalars

Between two words of a scalar stand blanks and line breaks. Blanks within a line are kept. A single
line break becomes a space, and of several the first is dropped; blanks around line breaks do not
count.
-/

namespace RootAuthority.Yaml

/-- The text without a line break in front. -/
def dropBreak : List Char → List Char
  | '\r' :: '\n' :: rest => rest
  | [] => []
  | c :: rest => if isBreak c then rest else c :: rest

/-- What follows the line, of which only blanks and a comment are left. -/
def endLine? (text : List Char) : Option (List Char) :=
  let rest := text.dropWhile isBlank
  let rest := if rest.head? = some '#' then rest.dropWhile (!isBreak ·) else rest
  if rest.head?.all isBreak then some (dropBreak rest) else none

/-- Blanks and line breaks between two words. -/
structure Gap where
  /-- The blanks before the first line break. -/
  blanks : List Char
  /-- The text of the first line break, empty if it was escaped. -/
  firstBreak : List Char
  laterBreaks : List Char
  /-- A line has ended. -/
  broken : Bool
  /-- Characters after the last line break. -/
  column : Nat
deriving DecidableEq, Repr

namespace Gap

/-- A gap of which nothing is read. -/
def start : Gap := ⟨[], [], [], false, 0⟩

/-- A gap that starts with an escaped line break. -/
def escaped : Gap := ⟨[], [], [], true, 0⟩

/-- The gap with one more line break. -/
def addBreak (g : Gap) (c : Char) : Gap :=
  if g.broken then { g with laterBreaks := g.laterBreaks ++ [c], column := 0 }
  else { g with blanks := [], firstBreak := [c], broken := true, column := 0 }

/-- Reads a gap. A tab to the left of the column `indent` of a new line is refused. -/
def read (indent : Nat) : Gap → List Char → Option (Gap × List Char)
  | g, [] => some (g, [])
  | g, '\r' :: '\n' :: rest => read indent (g.addBreak '\n') rest
  | g, c :: rest =>
    if isBlank c then
      if g.broken then
        if c = '\t' ∧ g.column < indent then none
        else read indent { g with column := g.column + 1 } rest
      else read indent { g with blanks := g.blanks ++ [c] } rest
    else if isBreak c then read indent (g.addBreak (breakText c)) rest
    else some (g, c :: rest)

/-- **What a gap counts for in the text of the scalar.** -/
def text (g : Gap) : List Char :=
  if g.broken then
    if g.firstBreak = ['\n'] then (if g.laterBreaks.isEmpty then [' '] else g.laterBreaks)
    else g.firstBreak ++ g.laterBreaks
  else g.blanks

end Gap

end RootAuthority.Yaml
