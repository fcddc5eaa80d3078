import BuildPlan.Binary64.Shortest

/-!
# JSON values

The values of the JSON data format. An object is the list of its members as they were written; of
several members with one name the last one counts.
-/

set_option autoImplicit false
set_option relaxedAutoImplicit false

namespace BuildPlan

/-- A number of a JSON text. -/
inductive JsonNumber where
  /-- An integer, kept exactly. -/
  | integer (value : Int)
  /-- A number with a fraction or an exponent, or one too large for an integer. -/
  | float (value : Binary64)
  deriving DecidableEq

/-- A JSON value. -/
inductive Json where
  | null
  | bool (value : Bool)
  | number (value : JsonNumber)
  | string (text : String)
  | array (items : List Json)
  | object (members : List (String × Json))

namespace JsonNumber

/-- Numbers are written with a fraction, and with an exponent from `1e16` on and below `1e-5`. -/
def layout : Binary64.Layout where
  tie := .toEven
  positional := fun leading ↦ -5 ≤ leading && leading < 16
  fractionAlways := true
  infinityName := "null"
  nanName := "null"

/-- The text of a number. -/
def text : JsonNumber → String
  | .integer value => toString value
  | .float value => layout.text value

end JsonNumber

namespace Json

/-- What a value is, in words. -/
def kind : Json → String
  | .null => "null"
  | .bool _ => "a boolean"
  | .number _ => "a number"
  | .string _ => "a string"
  | .array _ => "an array"
  | .object _ => "an object"

end Json

end BuildPlan
