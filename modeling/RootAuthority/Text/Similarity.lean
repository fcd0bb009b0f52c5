/-!
# Similarity of words

Jaro's measure of two words: characters that the words have in common, not too far apart, count for
it, and pairs of them in another order count against it. The measure lies between 0 and 1; it is kept
as a fraction of whole numbers.
-/

namespace RootAuthority.Text

/-- A fraction of whole numbers. -/
structure Fraction where
  numerator : Nat
  denominator : Nat
deriving DecidableEq, Repr

namespace Fraction

/-- The first fraction is less than the second. -/
def less (a b : Fraction) : Bool := a.numerator * b.denominator < b.numerator * a.denominator

end Fraction

/-- The first place from `low` up to `high` that holds the character and is not taken. -/
def freePlace? (c : Char) (low high : Nat) (taken : List Nat) (word : List Char) : Option Nat :=
  (List.range (min high word.length)).find? fun j =>
    low ≤ j && word[j]? = some c && !taken.contains j

/-- Pairs the characters of one word, from place `i` on, with equal ones of the other, at most `range`
    places apart. Gives the characters that found a partner, and the places of the partners. -/
def partners (range : Nat) (other : List Char) : (i : Nat) → (taken : List Nat) → List Char →
    List Char × List Nat
  | _, taken, [] => ([], taken)
  | i, taken, c :: rest =>
    match freePlace? c (i - range) (i + range + 1) taken other with
    | some j =>
      let (cs, taken) := partners range other (i + 1) (j :: taken) rest
      (c :: cs, taken)
    | none => partners range other (i + 1) taken rest

/-- **Jaro's measure of two words.** -/
def similarity (a b : List Char) : Fraction :=
  let range := max a.length b.length / 2 - 1
  let (common, places) := partners range b 0 [] a
  let m := common.length
  if a.isEmpty ∧ b.isEmpty then ⟨1, 1⟩
  else if m = 0 then ⟨0, 1⟩
  else
    let others := ((b.zipIdx).filter fun (_, j) => places.contains j).map Prod.fst
    let moved := ((common.zip others).filter fun (c, d) => c ≠ d).length / 2
    ⟨m * b.length * m + m * a.length * m + (m - moved) * a.length * b.length,
      3 * a.length * b.length * m⟩

end RootAuthority.Text
