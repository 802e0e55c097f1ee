/-!
# YAML documents

A document is a tree of scalars, sequences and mappings. A scalar keeps the
style and the tag it was written with, since they decide what it may stand for;
a mapping keeps its entries in order, repeated keys included.
-/
namespace CoreBridge.Yaml

inductive Style where
  | plain
  | singleQuoted
  | doubleQuoted
  | literal
  | folded
deriving DecidableEq, Repr

inductive Node where
  | scalar (style : Style) (tag : Option String) (text : String)
  | sequence (items : List Node)
  | mapping (entries : List (Node × Node))
deriving Inhabited

namespace Node

/-- The scalar where none was written. -/
def empty : Node := .scalar .plain none ""

/-- The tag of whole numbers. -/
def intTag : String := "tag:yaml.org,2002:int"

/-- The text of a scalar, whatever it might stand for. -/
def text? : Node → Option String
  | scalar _ _ text => some text
  | _ => none

/-- The text of a scalar that may stand for a number. -/
def numeral? : Node → Option String
  | scalar .plain _ text => some text
  | scalar .literal (some tag) text => if tag = intTag then some text else none
  | _ => none

/-- The items of a sequence; a scalar that was not written is one without any. -/
def items? : Node → Option (List Node)
  | sequence items => some items
  | scalar .plain _ "" => some []
  | _ => none

/-- The entries of a mapping; a scalar that was not written is one without any. -/
def entries? : Node → Option (List (Node × Node))
  | mapping entries => some entries
  | scalar .plain _ "" => some []
  | _ => none

end Node
end CoreBridge.Yaml
