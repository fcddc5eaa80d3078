import BuildPlan.Binary64.Decimal
import BuildPlan.Error

/-!
# Scalars of gates

The values that gate expressions compute with: booleans, numbers and strings. A number keeps the
text that it was written as, so that `007` still equals the string `'007'`.

Values of one kind compare directly, numbers by their numeric value. Values of different kinds are
equal if they are written the same, and are never ordered.
-/

set_option autoImplicit false
set_option relaxedAutoImplicit false

namespace BuildPlan.Gate

/-- A value of a gate expression. -/
inductive Scalar where
  | bool (value : Bool)
  /-- A number and the text that it was written as. -/
  | number (value : Binary64) (text : String)
  | string (text : String)
  deriving DecidableEq

namespace Scalar

/-- What a leaf of a store stands for: a boolean or a finite number if it is written like one, a
string in every other case. -/
def ofLeaf (text : String) : Scalar :=
  if text = "true" then .bool true
  else if text = "false" then .bool false
  else
    match Binary64.ofText? text with
    | some value => if value.isFinite then .number value text else .string text
    | none => .string text

/-- The text that a value is written as. -/
def text : Scalar → String
  | .bool value => toString value
  | .number _ text => text
  | .string text => text

/-- The kind of a value and its text. -/
def describe : Scalar → String
  | .bool value => "boolean " ++ toString value
  | .number _ text => "number " ++ text
  | .string text => "string " ++ quoted text

/-- Whether two values are equal. -/
def equal : Scalar → Scalar → Bool
  | .bool left, .bool right => left == right
  | .number left _, .number right _ => left.equal right
  | .string left, .string right => left == right
  | left, right => left.text == right.text

/-- The order of two values; only two numbers and two strings have one. -/
def compare? : Scalar → Scalar → Option Ordering
  | .number left _, .number right _ => left.compare? right
  | .string left, .string right => some (compare left right)
  | _, _ => none

end Scalar

end BuildPlan.Gate
