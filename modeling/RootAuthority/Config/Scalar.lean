import RootAuthority.Yaml.Node

/-!
# What a scalar says

A setting is a text, a truth value or a number, and a scalar is read as what the setting calls for.
Any scalar is a text as it stands. Truth values and numbers are not quoted; a literal scalar counts
only with the tag for them. An optional text is missing if it is not quoted and says null or
nothing.
-/

namespace RootAuthority.Config

open Yaml (Node ScalarStyle)

/-! ## Tags -/

/-- The tag of a kind of value. -/
def valueTag (kind : String) : Octets := Octets.ofText ("tag:yaml.org,2002:" ++ kind)

/-- A scalar in this style and with this tag may be a value of the kind. -/
def mayBe (kind : String) (style : ScalarStyle) (tag : Option Octets) : Bool :=
  style = .plain || (style = .literal && tag = some (valueTag kind))

/-! ## Truth values -/

/-- The truth value that a text spells. -/
def truthValue? (s : String) : Option Bool :=
  if s = "true" ∨ s = "True" ∨ s = "TRUE" then some true
  else if s = "false" ∨ s = "False" ∨ s = "FALSE" then some false
  else none

/-! ## Numbers -/

/-- The value of a digit in a base. -/
def digit? (base : Nat) (c : Char) : Option Nat := (Octets.hexValue? c).filter (· < base)

/-- The number that digits in a base spell. -/
def digits? (base : Nat) (cs : List Char) : Option Nat :=
  if cs.isEmpty then none
  else cs.foldlM (fun n c => (digit? base c).map (n * base + ·)) 0

/-- The number that an unsigned text spells: in base 16, 8 or 2 after a mark, else in base 10
    without leading zeros. -/
def unsigned? : List Char → Option Nat
  | '0' :: 'x' :: cs => digits? 16 cs
  | '0' :: 'o' :: cs => digits? 8 cs
  | '0' :: 'b' :: cs => digits? 2 cs
  | ['0'] => some 0
  | '0' :: _ => none
  | cs => digits? 10 cs

/-- **The number below 2^32 that a text spells**, which may have a plus sign. -/
def number? (s : String) : Option Nat :=
  (match s.toList with
    | '+' :: cs => unsigned? cs
    | cs => unsigned? cs).filter (· < 0x1_0000_0000)

/-! ## Scalars -/

/-- A text that means that there is none. -/
def isNull (s : String) : Bool := s = "null" || s = "Null" || s = "NULL" || s = "~"

/-- The text of a node, if it is a scalar. -/
def textOf? : Node → Option String
  | .scalar _ _ _ s => some s
  | _ => none

/-- The truth value of a node. -/
def truthOf? : Node → Option Bool
  | .scalar _ tag style s => if mayBe "bool" style tag then truthValue? s else none
  | _ => none

/-- The number of a node. -/
def numberOf? : Node → Option Nat
  | .scalar _ tag style s => if mayBe "int" style tag then number? s else none
  | _ => none

/-- **The text of a node, or that there is none**; nothing at all if the node says neither. -/
def optionalTextOf? : Node → Option (Option String)
  | .scalar _ tag style s =>
    if style ≠ .plain then some (some s)
    else match tag with
      | none => some (if s.isEmpty ∨ isNull s then none else some s)
      | some t =>
        if t ≠ valueTag "null" then some (some s) else if isNull s then some none else none
  | _ => none

end RootAuthority.Config
