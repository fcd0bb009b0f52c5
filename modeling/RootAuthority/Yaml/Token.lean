import RootAuthority.Octets
import RootAuthority.Yaml.Character

/-!
# Tokens of YAML documents
-/

namespace RootAuthority.Yaml

/-- How a scalar is written. -/
inductive ScalarStyle
  | plain
  | singleQuoted
  | doubleQuoted
  | literal
  | folded
deriving DecidableEq, Repr

/-- A token. Blocks that indentation opens and closes have tokens too. -/
inductive Token
  | version (major minor : Nat)
  | tagHandle (handle : String) (start : Octets)
  | documentStart
  | documentEnd
  | blockSequenceStart
  | blockMappingStart
  | blockEnd
  | flowSequenceStart
  | flowSequenceEnd
  | flowMappingStart
  | flowMappingEnd
  | blockEntry
  | flowEntry
  | key
  | value
  | reference (name : String)
  | anchor (name : String)
  | tag (handle : String) (suffix : Octets)
  | scalar (style : ScalarStyle) (text : String)
deriving DecidableEq, Repr

end RootAuthority.Yaml
