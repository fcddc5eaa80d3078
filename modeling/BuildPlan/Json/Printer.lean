import BuildPlan.Json.Basic

/-!
# Writing JSON texts

Values are written over several lines, every element and every member on its own, two spaces
further in than the brackets around it. Empty arrays and objects take no line break. In strings
only the quote, the backslash and the control characters below the space are escaped.
-/

set_option autoImplicit false
set_option relaxedAutoImplicit false

namespace BuildPlan.Json

/-- The two lower case hexadecimal digits of a number below 256. -/
def hexByte (n : Nat) : List Char :=
  [Nat.digitChar (n / 16), Nat.digitChar (n % 16)]

/-- A character as it stands in a string. -/
def escapeChar (c : Char) : List Char :=
  if c = '"' then ['\\', '"']
  else if c = '\\' then ['\\', '\\']
  else if c = '\x08' then ['\\', 'b']
  else if c = '\x0c' then ['\\', 'f']
  else if c = '\n' then ['\\', 'n']
  else if c = '\r' then ['\\', 'r']
  else if c = '\t' then ['\\', 't']
  else if c.toNat < 0x20 then ['\\', 'u', '0', '0'] ++ hexByte c.toNat
  else [c]

/-- A text as a string in quotes. -/
def quote (text : String) : String :=
  .ofList ('"' :: (text.toList.flatMap escapeChar ++ ['"']))

/-- A new line with two spaces for every level. -/
def lineBreak (level : Nat) : String :=
  .ofList ('\n' :: List.replicate (2 * level) ' ')

/-- Lines between brackets, or the brackets alone if there are none. -/
def bracketed (left right : String) (level : Nat) (lines : List String) : String :=
  if lines.isEmpty then left ++ right
  else
    left ++ String.intercalate "," (lines.map (lineBreak (level + 1) ++ ·)) ++ lineBreak level ++
      right

mutual

/-- The text of a value that stands some levels inside others. -/
def textAt (level : Nat) : Json → String
  | .null => "null"
  | .bool value => toString value
  | .number value => value.text
  | .string text => quote text
  | .array items => bracketed "[" "]" level (itemTexts (level + 1) items)
  | .object members => bracketed "\x7b" "\x7d" level (memberTexts (level + 1) members)

/-- The texts of the elements of an array. -/
def itemTexts (level : Nat) : List Json → List String
  | [] => []
  | item :: rest => item.textAt level :: itemTexts level rest

/-- The texts of the members of an object. -/
def memberTexts (level : Nat) : List (String × Json) → List String
  | [] => []
  | (name, item) :: rest => (quote name ++ ": " ++ item.textAt level) :: memberTexts level rest

end

/-- The text of a value. -/
def text (value : Json) : String :=
  value.textAt 0

end BuildPlan.Json
