import RootAuthority.Yaml.Token.Gap

/-!
# Plain scalars

A plain scalar has no quotes. It goes on until a colon before a gap, a comment, a separator of
documents, a line that is indented too little, or, inside braces and brackets, one of the characters
that structure them.
-/

namespace RootAuthority.Yaml

/-- Inside braces and brackets a colon before one of these characters is refused. -/
def refusedAfterColon : List Char → Bool
  | c :: _ => c = '?' || isFlowIndicator c
  | [] => false

/-- Reads characters of a plain scalar up to a gap or its end. -/
def readPlainWord (flow : Bool) : List Char → Option (List Char × List Char)
  | [] => some ([], [])
  | c :: rest =>
    if isBlank c ∨ isBreak c then some ([], c :: rest)
    else if flow ∧ c = ':' ∧ refusedAfterColon rest then none
    else if (c = ':' ∧ atGap rest) ∨ (flow ∧ isFlowIndicator c) then some ([], c :: rest)
    else (readPlainWord flow rest).map fun (word, rest) => (c :: word, rest)

/-- Reads gaps and words of a plain scalar after its first word, and says whether a line ended after
    the last; `fuel` is at least the number of characters left. -/
def readPlainRest (flow : Bool) (inner : Nat) : (fuel : Nat) → List Char →
    Option (List Char × Bool × List Char)
  | 0, text => some ([], false, text)
  | fuel + 1, text => do
    let (gap, after) ← Gap.read inner Gap.start text
    let ended := (gap.broken ∧ gap.column < inner ∧ flow = false)
      ∨ (gap.broken ∧ gap.column = 0 ∧ atDocumentMark after) ∨ after.head? = some '#'
    if gap = Gap.start then return ([], false, text)
    else if ended then return ([], gap.broken, after)
    else
      let (word, after) ← readPlainWord flow after
      if word.isEmpty then return ([], gap.broken, after)
      else
        let (more, broken, rest) ← readPlainRest flow inner fuel after
        return (gap.text ++ word ++ more, broken, rest)

/-- **Reads a plain scalar**; `inner` is the least column that is inside the block around it. The gap
    after it is read too. -/
def readPlain (flow : Bool) (inner : Nat) (text : List Char) :
    Option (List Char × Bool × List Char) := do
  let (word, after) ← readPlainWord flow text
  let (more, broken, rest) ← readPlainRest flow inner after.length after
  return (word ++ more, broken, rest)

end RootAuthority.Yaml
