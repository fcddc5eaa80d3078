import BuildPlan.Dictionary
import BuildPlan.Text.Cut

/-!
# Environments

The environment variables that a run can ask for by name. A system keeps them as a block of entries,
each of which is a name, an equals sign and a value. Names may hold equals signs themselves, so an
entry can give values to several names: the entry `A=B=C` gives `B=C` to `A`, and `C` to `A=B`.
-/

set_option autoImplicit false
set_option relaxedAutoImplicit false

namespace BuildPlan

/-- The values of environment variables by their names. -/
abbrev Environment := String → Option String

namespace Environment

/-- The character between a name and its value. -/
def equalsSign : Char := '='

/-- The environment in which just the names of a dictionary have values. -/
def ofDictionary (dictionary : Dictionary String) : Environment :=
  dictionary.get?

/-- An entry of a block. -/
def entry (name value : String) : String :=
  name ++ String.singleton equalsSign ++ value

/-- The value that an entry gives to a name, if it does: what stands behind the name and an equals
sign. -/
def valueIn? (name entry : String) : Option String :=
  (Text.after? (name.toList ++ [equalsSign]) entry.toList).map .ofList

/-- The environment of a block. The first entry that gives a value to a name counts, and the empty
name has none. -/
def ofBlock (entries : List String) : Environment := fun name ↦
  if name = "" then none else entries.findSome? (valueIn? name)

/-- The environment of a program that is started with the variables of a dictionary. The block has
one entry for each of them, in the order of their names. -/
def ofVariables (dictionary : Dictionary String) : Environment :=
  ofBlock (dictionary.entries.map fun known ↦ entry known.1 known.2)

end Environment

end BuildPlan
