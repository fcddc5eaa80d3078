import BuildPlan.Binary64.Shortest

/-!
# Documents

A document of the KDL document language is a list of nodes. A node has a name, arguments and
properties in any order, and possibly a block of nodes below it. A property may be given more than
once; the last one counts.
-/

set_option autoImplicit false
set_option relaxedAutoImplicit false

namespace BuildPlan.Kdl

/-- A value of an argument or a property. -/
inductive Value where
  | null
  | bool (value : Bool)
  | integer (value : Int)
  | float (value : Binary64)
  | string (text : String)
  deriving DecidableEq

/-- What stands behind the name of a node. -/
inductive Entry where
  /-- A value without a name. -/
  | argument (value : Value)
  /-- A value with a name. -/
  | property (name : String) (value : Value)
  deriving DecidableEq

/-- A node. -/
inductive Node where
  /-- A node without a block. -/
  | plain (name : String) (entries : List Entry)
  /-- A node with a block of nodes, which may be empty. -/
  | block (name : String) (entries : List Entry) (children : List Node)

namespace Value

/-- The text of a string. -/
def string? : Value → Option String
  | .string text => some text
  | _ => none

/-- The value of a boolean. -/
def bool? : Value → Option Bool
  | .bool value => some value
  | _ => none

/-- The text of a value that is not null. A number is written in full, without an exponent. -/
def text? : Value → Option String
  | .null => none
  | .bool value => some (toString value)
  | .integer value => some (toString value)
  | .float value => some (Binary64.plainLayout.text value)
  | .string text => some text

end Value

namespace Entry

/-- The value of an argument. -/
def argument? : Entry → Option Value
  | .argument value => some value
  | .property .. => none

/-- The value of a property with a name. -/
def property? (name : String) : Entry → Option Value
  | .argument _ => none
  | .property other value => if other = name then some value else none

end Entry

namespace Node

/-- The name of a node. -/
def name : Node → String
  | .plain name _ => name
  | .block name .. => name

/-- The arguments and properties of a node. -/
def entries : Node → List Entry
  | .plain _ entries => entries
  | .block _ entries _ => entries

/-- The block of a node, if it has one. -/
def children? : Node → Option (List Node)
  | .plain .. => none
  | .block _ _ children => some children

/-- The first argument of a node. -/
def argument? (node : Node) : Option Value :=
  node.entries.findSome? Entry.argument?

/-- The value of a property of a node; of several with one name it is the last one. -/
def property? (node : Node) (name : String) : Option Value :=
  node.entries.reverse.findSome? (Entry.property? name)

end Node

end BuildPlan.Kdl
