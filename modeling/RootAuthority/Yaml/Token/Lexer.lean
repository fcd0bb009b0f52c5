import RootAuthority.Yaml.Token.Block
import RootAuthority.Yaml.Token.Label
import RootAuthority.Yaml.Token.Plain
import RootAuthority.Yaml.Token.Quoted

/-!
# Cutting a document into tokens

Two things make the tokens of a document depend on more than the next characters.

* **Blocks.** Outside braces and brackets the column of an entry says which block it belongs to. An
  entry further to the right opens a block, and one further to the left closes blocks.
* **Keys.** That something is a key shows only at the colon after it. So the lexer remembers where a
  key may have started, and puts the token for it there once the colon comes. A key ends on its
  line and within 1024 characters.
-/

namespace RootAuthority.Yaml

/-- A place where a key may have started. -/
structure KeyStart where
  position : Position
  /-- Tokens before it. -/
  tokens : Nat
  /-- Nothing but a key can stand there. -/
  required : Bool
deriving DecidableEq, Repr

namespace KeyStart

/-- The key would have had to end before this place. -/
def isOver (k : KeyStart) (here : Position) : Bool :=
  k.position.line < here.line || k.position.index + 1024 < here.index

end KeyStart

/-- A place in a document with all that counts for the tokens to come. -/
structure Lexer where
  rest : List Char
  position : Position
  /-- The columns of the open blocks, the innermost first. -/
  blocks : List Nat
  /-- Where a key may have started inside the innermost braces or brackets. -/
  keyStart : Option KeyStart
  /-- Where one may have started around them, the innermost first. -/
  outerKeyStarts : List (Option KeyStart)
  /-- A key may start here. -/
  keyAllowed : Bool
  /-- The tokens so far, the last first. -/
  tokens : List Token

namespace Lexer

/-- The start of a document. A mark of byte order takes up a column. -/
def start (text : List Char) : Lexer :=
  let at0 : Lexer := ⟨text, Position.start, [], none, [], true, []⟩
  match text with
  | c :: rest => if c = byteOrderMark then { at0 with rest := rest, position := ⟨1, 0, 1⟩ } else at0
  | [] => at0

/-- The place is inside braces or brackets. -/
def inFlow (s : Lexer) : Bool := !s.outerKeyStarts.isEmpty

/-- The least column that is inside the innermost block. -/
def innerColumn (s : Lexer) : Nat := match s.blocks with
  | [] => 0
  | column :: _ => column + 1

/-- Goes on to what is left of the text. -/
def moveTo (s : Lexer) (rest : List Char) : Lexer :=
  { s with
    rest := rest
    position := s.position.after (s.rest.take (s.rest.length - rest.length)) }

/-- Adds a token. -/
def push (s : Lexer) (t : Token) : Lexer := { s with tokens := t :: s.tokens }

/-- Adds a token after the first `count` of them. -/
def insert (s : Lexer) (count : Nat) (t : Token) : Lexer :=
  { s with tokens := s.tokens.insertIdx (s.tokens.length - count) t }

/-! ## Keys -/

/-- No key has started. Nothing if one has to. -/
def forgetKey? (s : Lexer) : Option Lexer :=
  if s.keyStart.any (·.required) then none else some { s with keyStart := none }

/-- A key may have started here, if one is allowed. -/
def offerKey? (s : Lexer) : Option Lexer :=
  if s.keyAllowed then do
    let s ← s.forgetKey?
    let required := s.inFlow = false ∧ s.blocks.head? = some s.position.column
    return { s with keyStart := some ⟨s.position, s.tokens.length, required⟩ }
  else some s

/-- Forgets the starts of keys that would have had to end before. Nothing if one of them has to be
    the start of a key. -/
def forgetOverdue? (s : Lexer) : Option Lexer :=
  let overdue (k : KeyStart) : Bool := k.isOver s.position
  let all := s.keyStart :: s.outerKeyStarts
  if all.any fun k => k.any fun k => overdue k && k.required then none
  else some { s with
    keyStart := s.keyStart.filter (!overdue ·)
    outerKeyStarts := s.outerKeyStarts.map (·.filter (!overdue ·)) }

/-! ## Blocks -/

/-- Opens a block at a column, unless the innermost block is there or further to the right; its token
    comes after the first `count` tokens. -/
def openBlock (s : Lexer) (column count : Nat) (t : Token) : Lexer :=
  if s.inFlow ∨ column < s.innerColumn then s
  else { s with blocks := column :: s.blocks }.insert count t

/-- Closes the blocks whose column the test picks, from the innermost on. -/
def closeBlocks (s : Lexer) (closes : Nat → Bool) : Lexer :=
  if s.inFlow then s
  else { s with
    blocks := s.blocks.dropWhile closes
    tokens := List.replicate (s.blocks.takeWhile closes).length .blockEnd ++ s.tokens }

/-! ## Between tokens -/

/-- Skips blanks, comments and line breaks. A tab is skipped only where no block can start. Says what
    is left, and whether a key may start there. -/
def skipGap (flow : Bool) : (keyAllowed comment : Bool) → List Char → Bool × List Char
  | keyAllowed, _, [] => (keyAllowed, [])
  | keyAllowed, comment, c :: rest =>
    if isBreak c then skipGap flow (keyAllowed || !flow) false rest
    else if comment ∨ c = ' ' ∨ (c = '\t' ∧ (flow ∨ keyAllowed = false)) then
      skipGap flow keyAllowed comment rest
    else if c = '#' then skipGap flow keyAllowed true rest
    else (keyAllowed, c :: rest)

/-- Goes on to the next token, and closes the blocks that it is not in. -/
def toToken? (s : Lexer) : Option Lexer := do
  let (keyAllowed, rest) := skipGap s.inFlow s.keyAllowed false s.rest
  let s ← { s.moveTo rest with keyAllowed := keyAllowed }.forgetOverdue?
  return s.closeBlocks (s.position.column < ·)

/-! ## One token -/

/-- Reads a token of one character. -/
def readMark (s : Lexer) (t : Token) : Lexer := (s.push t).moveTo s.rest.tail

/-- Reads a directive, or the mark of the start or the end of a document. -/
def readAtMargin? (s : Lexer) (t : Token) (rest : List Char) : Option Lexer := do
  let s ← (s.closeBlocks fun _ => true).forgetKey?
  return { s.push t with keyAllowed := false }.moveTo rest

/-- Reads an opening brace or bracket. -/
def readOpening? (s : Lexer) (t : Token) : Option Lexer := do
  let s ← s.offerKey?
  return { s with
    keyStart := none
    outerKeyStarts := s.keyStart :: s.outerKeyStarts
    keyAllowed := true }.readMark t

/-- Reads a closing brace or bracket. -/
def readClosing? (s : Lexer) (t : Token) : Option Lexer := do
  let s ← s.forgetKey?
  let s := match s.outerKeyStarts with
    | [] => s
    | k :: outer => { s with keyStart := k, outerKeyStarts := outer }
  return { s with keyAllowed := false }.readMark t

/-- Reads the comma after an entry in braces or brackets. -/
def readFlowEntry? (s : Lexer) : Option Lexer := do
  let s ← s.forgetKey?
  return { s with keyAllowed := true }.readMark .flowEntry

/-- Opens a block here, which is allowed only where a key may start. -/
def openBlockHere? (s : Lexer) (t : Token) : Option Lexer :=
  if s.inFlow then some s
  else if s.keyAllowed then some (s.openBlock s.position.column s.tokens.length t)
  else none

/-- Reads the hyphen before an entry of a block. -/
def readBlockEntry? (s : Lexer) : Option Lexer := do
  let s ← (← s.openBlockHere? .blockSequenceStart).forgetKey?
  return { s with keyAllowed := true }.readMark .blockEntry

/-- Reads the question mark before a key. -/
def readKey? (s : Lexer) : Option Lexer := do
  let s ← (← s.openBlockHere? .blockMappingStart).forgetKey?
  return { s with keyAllowed := !s.inFlow }.readMark .key

/-- **Reads the colon before a value.** If a key may have started, it has. -/
def readValue? (s : Lexer) : Option Lexer := do
  match s.keyStart with
  | some k =>
    let s := (s.insert k.tokens .key).openBlock k.position.column k.tokens .blockMappingStart
    return { s with keyStart := none, keyAllowed := false }.readMark .value
  | none =>
    let s ← s.openBlockHere? .blockMappingStart
    return { s with keyAllowed := !s.inFlow }.readMark .value

/-- Reads a token that may start a key. -/
def readInLine? (s : Lexer) (read : Option (Token × List Char)) : Option Lexer := do
  let s ← s.offerKey?
  let (t, rest) ← read
  return { s.push t with keyAllowed := false }.moveTo rest

/-- Reads a plain scalar. After it a key may start if a line ended. -/
def readPlain? (s : Lexer) : Option Lexer := do
  let s ← s.offerKey?
  let (text, broken, rest) ← readPlain s.inFlow s.innerColumn s.rest
  return { s.push (.scalar .plain (String.ofList text)) with keyAllowed := broken }.moveTo rest

/-- Reads a block scalar. -/
def readBlock? (s : Lexer) (style : ScalarStyle) : Option Lexer := do
  let s ← s.forgetKey?
  let (text, rest) ← readBlock (style = .folded) s.innerColumn s.rest.tail
  return { s.push (.scalar style (String.ofList text)) with keyAllowed := true }.moveTo rest

/-- A plain scalar may start here. -/
def startsPlain (flow : Bool) : List Char → Bool
  | [] => false
  | c :: rest =>
    if isBlank c ∨ isBreak c then false
    else if c = '-' then !rest.head?.any isBlank
    else if c = '?' ∨ c = ':' then !flow && !atGap rest
    else !(isFlowIndicator c
      || ['#', '&', '*', '!', '|', '>', '\'', '"', '%', '@', '\x60'].contains c)

/-- A name after an asterisk or an ampersand. -/
def name? (token : String → Token) (text : List Char) : Option (Token × List Char) :=
  (readName text).map fun (name, rest) => (token name, rest)

/-- A quoted text after its opening quote. -/
def quoted? (style : ScalarStyle)
    (read : (fuel : Nat) → (lineStart : Bool) → List Char → Option (List Char × List Char))
    (text : List Char) : Option (Token × List Char) :=
  (read (text.length + 1) false text).map fun (chars, rest) =>
    (.scalar style (String.ofList chars), rest)

/-- Reads a token whose first character does not depend on what follows it, or a plain scalar. -/
def readByFirst? (s : Lexer) (c : Char) (rest : List Char) : Option Lexer :=
  match c with
  | '[' => s.readOpening? .flowSequenceStart
  | '{' => s.readOpening? .flowMappingStart
  | ']' => s.readClosing? .flowSequenceEnd
  | '}' => s.readClosing? .flowMappingEnd
  | ',' => s.readFlowEntry?
  | '*' => s.readInLine? (name? .reference rest)
  | '&' => s.readInLine? (name? .anchor rest)
  | '!' => s.readInLine? (readTag s.inFlow rest)
  | '\'' => s.readInLine? (quoted? .singleQuoted readSingleQuoted rest)
  | '"' => s.readInLine? (quoted? .doubleQuoted readDoubleQuoted rest)
  | _ =>
    if c = '|' ∧ s.inFlow = false then s.readBlock? .literal
    else if c = '>' ∧ s.inFlow = false then s.readBlock? .folded
    else if startsPlain s.inFlow s.rest then s.readPlain?
    else none

/-- **Reads a token.** -/
def readToken? (s : Lexer) : Option Lexer :=
  match s.rest with
  | [] => none
  | c :: rest =>
    let margin : Bool := s.position.column = 0
    if margin ∧ c = '%' then do
      let (t, rest) ← readDirective rest
      s.readAtMargin? t rest
    else if margin ∧ atDocumentMark s.rest then
      s.readAtMargin? (if c = '-' then .documentStart else .documentEnd) (s.rest.drop 3)
    else if c = '-' ∧ atGap rest then s.readBlockEntry?
    else if c = '?' ∧ (s.inFlow ∨ atGap rest) then s.readKey?
    else if c = ':' ∧ (s.inFlow ∨ atGap rest) then s.readValue?
    else s.readByFirst? c rest

/-! ## All tokens -/

/-- Closes all blocks at the end of the text. -/
def finish? (s : Lexer) : Option (List Token) := do
  let s ← (s.closeBlocks fun _ => true).forgetKey?
  return s.tokens.reverse

/-- Reads tokens up to the end of the text; `fuel` is greater than the number of characters left. -/
def run? : (fuel : Nat) → Lexer → Option (List Token)
  | 0, _ => none
  | fuel + 1, s => do
    let s ← s.toToken?
    if s.rest.isEmpty then s.finish? else run? fuel (← s.readToken?)

end Lexer

/-- **The tokens of a document**; nothing if it cannot be cut into tokens. -/
def tokens? (text : String) : Option (List Token) :=
  let chars := text.toList
  if chars.all isReadable then Lexer.run? (chars.length + 1) (Lexer.start chars) else none

end RootAuthority.Yaml
