import RootAuthority.Yaml.Node
import RootAuthority.Yaml.Token.Lexer

/-!
# From tokens to nodes

One document with its directives is read by recursive descent. Where the tokens leave out a key, a
value or an item, an empty scalar stands in for it.

An anchor gives its node a label, the number of different names given so far. A name that is given
again therefore gets a label that the next new name gets too.
-/

namespace RootAuthority.Yaml

/-- The tokens that are left, what tag handles stand for, and the labels of the names given. -/
structure Cursor where
  tokens : List Token
  handles : List (String × Octets)
  names : List (String × Nat)

namespace Cursor

/-- The cursor before other tokens. -/
def moveTo (c : Cursor) (tokens : List Token) : Cursor := { c with tokens := tokens }

/-- One of these tokens comes next. -/
def isAt (c : Cursor) (tokens : List Token) : Bool := c.tokens.head?.any (tokens.contains ·)

/-! ## Labels and tags -/

/-- Gives a name to the node that starts here. -/
def giveName (c : Cursor) (name : String) : Nat × Cursor :=
  let label := (c.names.map Prod.fst).eraseDups.length
  (label, { c with names := (name, label) :: c.names })

/-- The tag that a handle and the end of a tag make. -/
def tag? (c : Cursor) (handle : String) (suffix : Octets) : Option Octets :=
  if handle.isEmpty then some suffix else (c.handles.lookup handle).map (· ++ suffix)

/-- Reads an anchor, if one comes next. -/
def readAnchor (c : Cursor) : Option Nat × Cursor :=
  match c.tokens with
  | .anchor name :: rest =>
    let (label, c) := c.giveName name
    (some label, c.moveTo rest)
  | _ => (none, c)

/-- Reads a tag, if one comes next. -/
def readTag? (c : Cursor) : Option (Option Octets × Cursor) :=
  match c.tokens with
  | .tag handle suffix :: rest => (c.tag? handle suffix).map fun tag => (some tag, c.moveTo rest)
  | _ => some (none, c)

/-- Reads anchor and tag in either order. -/
def readProperties? (c : Cursor) : Option (Option Nat × Option Octets × Cursor) := do
  match c.readAnchor with
  | (some label, c) =>
    let (tag, c) ← c.readTag?
    return (some label, tag, c)
  | (none, c) =>
    let (tag, c) ← c.readTag?
    if tag.isSome then
      let (label, c) := c.readAnchor
      return (label, tag, c)
    else return (none, none, c)

/-! ## Nodes -/

/-- Reads a node, or nothing before one of these tokens. -/
def readUnless (stops : List Token) (read : Cursor → Option (Node × Cursor)) (c : Cursor) :
    Option (Node × Cursor) :=
  if c.isAt stops then some (Node.empty, c) else read c

/-- Reads a colon and the value after it, or nothing. -/
def readValue (stops : List Token) (read : Cursor → Option (Node × Cursor)) (c : Cursor) :
    Option (Node × Cursor) :=
  match c.tokens with
  | .value :: rest => readUnless stops read (c.moveTo rest)
  | _ => some (Node.empty, c)

/-- Skips the comma before an entry in braces or brackets other than the first. -/
def skipComma? (c : Cursor) (first : Bool) : Option Cursor :=
  if first then some c
  else match c.tokens with
    | .flowEntry :: rest => some (c.moveTo rest)
    | _ => none

/-- Reads the key and the value of a pair in brackets after its question mark. If the key is left out,
    the token after it is left out too. -/
def readPair (read : Cursor → Option (Node × Cursor)) (c : Cursor) :
    Option (Node × Cursor) := do
  let (key, c) ←
    if c.isAt [.value, .flowEntry, .flowSequenceEnd] then some (Node.empty, c.moveTo c.tokens.tail)
    else read c
  let (value, c) ← readValue [.flowEntry, .flowSequenceEnd] read c
  return (.mapping none [(key, value)], c)

/-- The tag of a scalar. A lone exclamation mark asks for nothing. -/
def scalarTag (tag : Option Octets) : Option Octets := tag.filter (· ≠ Octets.ofText "!")

mutual

/-- **Reads a node.** `block` allows blocks, and `unindented` allows a block sequence at the column
    of the key before it; `fuel` is greater than twice the number of tokens left. -/
def readNode : (fuel : Nat) → (block unindented : Bool) → Cursor → Option (Node × Cursor)
  | 0, _, _, _ => none
  | fuel + 1, block, unindented, c =>
    match c.tokens with
    | .reference name :: rest => (c.names.lookup name).map fun label => (.reference label, c.moveTo rest)
    | _ => do
      let (label, tag, c) ← c.readProperties?
      let bare := if label.isSome ∨ tag.isSome then some (.scalar label tag .plain "", c) else none
      match c.tokens with
      | .scalar style text :: rest => return (.scalar label (scalarTag tag) style text, c.moveTo rest)
      | .flowSequenceStart :: rest =>
        let (items, c) ← readFlowItems fuel true (c.moveTo rest)
        return (.sequence label items, c)
      | .flowMappingStart :: rest =>
        let (entries, c) ← readFlowEntries fuel true (c.moveTo rest)
        return (.mapping label entries, c)
      | .blockEntry :: _ =>
        if unindented then
          let (items, c) ← readUnindentedItems fuel c
          return (.sequence label items, c)
        else bare
      | .blockSequenceStart :: rest =>
        if block then
          let (items, c) ← readBlockItems fuel (c.moveTo rest)
          return (.sequence label items, c)
        else bare
      | .blockMappingStart :: rest =>
        if block then
          let (entries, c) ← readBlockEntries fuel (c.moveTo rest)
          return (.mapping label entries, c)
        else bare
      | _ => bare

/-- Reads the items of a sequence in brackets, and the closing bracket. -/
def readFlowItems : (fuel : Nat) → (first : Bool) → Cursor → Option (List Node × Cursor)
  | 0, _, _ => none
  | fuel + 1, first, c =>
    match c.tokens with
    | .flowSequenceEnd :: rest => some ([], c.moveTo rest)
    | _ => do
      let c ← c.skipComma? first
      match c.tokens with
      | .flowSequenceEnd :: rest => return ([], c.moveTo rest)
      | .key :: rest =>
        let (item, c) ← readPair (readNode fuel false false) (c.moveTo rest)
        let (items, c) ← readFlowItems fuel false c
        return (item :: items, c)
      | _ =>
        let (item, c) ← readNode fuel false false c
        let (items, c) ← readFlowItems fuel false c
        return (item :: items, c)

/-- Reads the entries of a mapping in braces, and the closing brace. -/
def readFlowEntries : (fuel : Nat) → (first : Bool) → Cursor →
    Option (List (Node × Node) × Cursor)
  | 0, _, _ => none
  | fuel + 1, first, c =>
    match c.tokens with
    | .flowMappingEnd :: rest => some ([], c.moveTo rest)
    | _ => do
      let c ← c.skipComma? first
      match c.tokens with
      | .flowMappingEnd :: rest => return ([], c.moveTo rest)
      | .key :: rest =>
        let (key, c) ← readUnless [.value, .flowEntry, .flowMappingEnd]
          (readNode fuel false false) (c.moveTo rest)
        let (value, c) ← readValue [.flowEntry, .flowMappingEnd] (readNode fuel false false) c
        let (entries, c) ← readFlowEntries fuel false c
        return ((key, value) :: entries, c)
      | _ =>
        let (key, c) ← readNode fuel false false c
        let (entries, c) ← readFlowEntries fuel false c
        return ((key, Node.empty) :: entries, c)

/-- Reads the items of a block sequence, and its end. -/
def readBlockItems : (fuel : Nat) → Cursor → Option (List Node × Cursor)
  | 0, _ => none
  | fuel + 1, c =>
    match c.tokens with
    | .blockEnd :: rest => some ([], c.moveTo rest)
    | .blockEntry :: rest => do
      let (item, c) ← readUnless [.blockEntry, .blockEnd] (readNode fuel true false) (c.moveTo rest)
      let (items, c) ← readBlockItems fuel c
      return (item :: items, c)
    | _ => none

/-- Reads the items of a block sequence at the column of the key before it. -/
def readUnindentedItems : (fuel : Nat) → Cursor → Option (List Node × Cursor)
  | 0, _ => none
  | fuel + 1, c =>
    match c.tokens with
    | .blockEntry :: rest => do
      let (item, c) ← readUnless [.blockEntry, .key, .value, .blockEnd] (readNode fuel true false)
        (c.moveTo rest)
      let (items, c) ← readUnindentedItems fuel c
      return (item :: items, c)
    | _ => some ([], c)

/-- Reads the entries of a block mapping, and its end. -/
def readBlockEntries : (fuel : Nat) → Cursor → Option (List (Node × Node) × Cursor)
  | 0, _ => none
  | fuel + 1, c =>
    match c.tokens with
    | .blockEnd :: rest => some ([], c.moveTo rest)
    | .key :: rest => do
      let stops := [.key, .value, .blockEnd]
      let (key, c) ← readUnless stops (readNode fuel true true) (c.moveTo rest)
      let (value, c) ← readValue stops (readNode fuel true true) c
      let (entries, c) ← readBlockEntries fuel c
      return ((key, value) :: entries, c)
    | _ => none

end

end Cursor

/-! ## Documents -/

/-- The directives before a document. -/
structure Directives where
  versioned : Bool
  handles : List (String × Octets)

namespace Directives

/-- No directives. -/
def empty : Directives := ⟨false, []⟩

/-- What handles stand for. Two of them need no directive. -/
def allHandles (d : Directives) : List (String × Octets) :=
  d.handles ++ [("!", Octets.ofText "!"), ("!!", Octets.ofText "tag:yaml.org,2002:")]

/-- Adds a directive: one version, which is 1.1 or 1.2, and each handle once. -/
def add? (d : Directives) : Token → Option Directives
  | .version major minor =>
    if d.versioned = false ∧ major = 1 ∧ (minor = 1 ∨ minor = 2) then some { d with versioned := true }
    else none
  | .tagHandle handle start =>
    if d.handles.any (·.1 = handle) then none
    else some { d with handles := (handle, start) :: d.handles }
  | _ => none

/-- The token is a directive. -/
def isDirective : Token → Bool
  | .version _ _ => true
  | .tagHandle _ _ => true
  | _ => false

end Directives

/-- Reads the content of a document after the mark of its start, which may be missing. -/
def readContent (handles : List (String × Octets)) (tokens : List Token) :
    Option (Node × List Token) :=
  (Cursor.readNode (2 * tokens.length + 2) true false ⟨tokens, handles, []⟩).map fun (node, c) =>
    (node, c.tokens)

/-- **The document that the tokens make.** Nothing at all makes an empty scalar. -/
def document? (tokens : List Token) : Option Node := do
  let directives ← (tokens.takeWhile Directives.isDirective).foldlM Directives.add? Directives.empty
  let handles := directives.allHandles
  let (node, rest) ←
    match tokens.dropWhile Directives.isDirective with
    | .documentStart :: rest =>
      if rest.head?.all fun t => Directives.isDirective t || t = .documentStart || t = .documentEnd then
        some (Node.empty, rest)
      else readContent handles rest
    | rest =>
      if tokens.isEmpty then some (Node.empty, [])
      else if tokens.head?.any Directives.isDirective then none
      else readContent handles rest
  if rest.all (· = .documentEnd) then return node else none

/-- **Reads a document.** -/
def read? (text : String) : Option Node := (tokens? text).bind document?

end RootAuthority.Yaml
