import RootAuthority.Yaml.Token

/-!
# Nodes of YAML documents

A document is a tree of scalars, sequences and mappings. A node may carry a label, and a reference
stands for the node with its label. If several nodes carry one label, it belongs to the last of them.
-/

namespace RootAuthority.Yaml

/-- A node. -/
inductive Node
  | reference (label : Nat)
  | scalar (label : Option Nat) (tag : Option Octets) (style : ScalarStyle) (text : String)
  | sequence (label : Option Nat) (items : List Node)
  | mapping (label : Option Nat) (entries : List (Node × Node))
deriving Repr

namespace Node

/-- What stands where nothing is written. -/
def empty : Node := scalar none none .plain ""

mutual

/-- The nodes of a tree that carry a label, in the order in which they start. -/
def labelled : Node → List (Nat × Node)
  | reference _ => []
  | scalar label tag style text => label.toList.map (·, scalar label tag style text)
  | sequence label items => label.toList.map (·, sequence label items) ++ labelledItems items
  | mapping label entries => label.toList.map (·, mapping label entries) ++ labelledEntries entries

/-- The nodes with a label among the items of a sequence. -/
def labelledItems : List Node → List (Nat × Node)
  | [] => []
  | item :: items => labelled item ++ labelledItems items

/-- The nodes with a label among the entries of a mapping. -/
def labelledEntries : List (Node × Node) → List (Nat × Node)
  | [] => []
  | (key, value) :: entries => labelled key ++ labelled value ++ labelledEntries entries

end

/-- **The node itself**, or the one that it stands for in a document with these labels. -/
def follow (labels : List (Nat × Node)) : Node → Node
  | reference label => ((labels.reverse.lookup label).getD (reference label))
  | node => node

end Node

end RootAuthority.Yaml
