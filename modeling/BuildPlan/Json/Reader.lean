import BuildPlan.Json.Number
import BuildPlan.Text.Cut
import BuildPlan.Text.Digit

/-!
# Reading JSON texts

`Json.ofText?` reads a whole text as one JSON value. The grammar is the strict one: no comments, no
trailing commas, no leading zeros, only the four blank characters, no control characters in
strings, and an escape for half of a surrogate pair must be followed by one for the other half.
Arrays and objects nest at most `maxNesting` deep.

Readers take the text from where they start and give what they read with the rest of the text.
-/

set_option autoImplicit false
set_option relaxedAutoImplicit false

namespace BuildPlan.Json

/-- The depth to which arrays and objects may nest. -/
def maxNesting : Nat := 127

/-- Whether a character may stand between two parts of a text. -/
def isBlank (c : Char) : Bool :=
  c = ' ' || c = '\n' || c = '\t' || c = '\r'

/-- A text without the blank characters in front. -/
def skipBlanks (text : List Char) : List Char :=
  text.dropWhile isBlank

/-! ### Strings -/

/-- The number of hexadecimal digits of a code unit. -/
def unitLength : Nat := 4

/-- Reads the hexadecimal digits of a code unit. -/
def readUnit? (text : List Char) : Option (Nat × List Char) :=
  let digits := text.take unitLength
  if digits.length = unitLength ∧ digits.all (Text.isDigitOf 16) then
    some (Text.ofDigitChars 16 digits, text.drop unitLength)
  else none

/-- Whether a code unit is the first half of a surrogate pair. -/
def isHighSurrogate (unit : Nat) : Bool := 0xD800 ≤ unit && unit < 0xDC00

/-- Whether a code unit is the second half of a surrogate pair. -/
def isLowSurrogate (unit : Nat) : Bool := 0xDC00 ≤ unit && unit < 0xE000

/-- Reads what follows the letter of a numeric escape. -/
def readCodePoint? (text : List Char) : Option (Char × List Char) := do
  let (unit, rest) ← readUnit? text
  if isLowSurrogate unit then none
  else if isHighSurrogate unit then
    match rest with
    | '\\' :: 'u' :: tail =>
      let (second, rest) ← readUnit? tail
      if isLowSurrogate second then
        some (.ofNat (0x10000 + (unit - 0xD800) * 0x400 + (second - 0xDC00)), rest)
      else none
    | _ => none
  else some (.ofNat unit, rest)

/-- The character that a letter after a backslash stands for. -/
def escaped? : Char → Option Char
  | '"' => some '"'
  | '\\' => some '\\'
  | '/' => some '/'
  | 'b' => some '\x08'
  | 'f' => some '\x0c'
  | 'n' => some '\n'
  | 'r' => some '\r'
  | 't' => some '\t'
  | _ => none

/-- Reads the rest of a string after its opening quote. The first argument bounds the number of
characters. -/
def readCharacters? : Nat → List Char → Option (List Char × List Char)
  | 0, _ => none
  | _ + 1, [] => none
  | _ + 1, '"' :: rest => some ([], rest)
  | fuel + 1, '\\' :: 'u' :: rest => do
    let (c, rest) ← readCodePoint? rest
    let (tail, rest) ← readCharacters? fuel rest
    some (c :: tail, rest)
  | fuel + 1, '\\' :: letter :: rest => do
    let c ← escaped? letter
    let (tail, rest) ← readCharacters? fuel rest
    some (c :: tail, rest)
  | fuel + 1, c :: rest =>
    if c.toNat < 0x20 || c = '\\' then none
    else do
      let (tail, rest) ← readCharacters? fuel rest
      some (c :: tail, rest)

/-- Reads a string after its opening quote. -/
def readString? (text : List Char) : Option (String × List Char) :=
  (readCharacters? (text.length + 1) text).map fun read ↦ (.ofList read.1, read.2)

/-! ### Numbers -/

/-- Reads the digits after a point, if there is one; at least one digit must follow it. -/
def readFraction? : List Char → Option (List Char × List Char)
  | '.' :: rest =>
    let parts := Decimal.cutDigits rest
    if parts.1.isEmpty then none else some parts
  | text => some ([], text)

/-- Reads an exponent, if there is one; at least one digit must follow its letter. -/
def readExponent? : List Char → Option (Option (Bool × List Char) × List Char)
  | [] => some (none, [])
  | c :: rest =>
    if c = 'e' ∨ c = 'E' then
      let signed := Decimal.cutSign rest
      let parts := Decimal.cutDigits signed.2
      if parts.1.isEmpty then none else some (some (signed.1, parts.1), parts.2)
    else some (none, c :: rest)

/-- Reads a number. -/
def readNumber? (text : List Char) : Option (JsonNumber × List Char) := do
  let (negative, unsigned) := match text with
    | '-' :: rest => (true, rest)
    | _ => (false, text)
  let (whole, rest) := Decimal.cutDigits unsigned
  if whole.isEmpty || (1 < whole.length && whole.head? == some '0') then none
  else
    let (fraction, rest) ← readFraction? rest
    let (exponent, rest) ← readExponent? rest
    let value ← JsonNumber.ofParts? { negative, whole, fraction, exponent }
    some (value, rest)

/-! ### Values -/

/-- A reader of one value. -/
abbrev Reader (α : Type) := List Char → Option (α × List Char)

/-- Reads the elements of an array after the first bracket or a comma. The first argument bounds
their number. -/
def readItems? (item? : Reader Json) : Nat → Reader (List Json)
  | 0, _ => none
  | fuel + 1, text => do
    let (item, rest) ← item? (skipBlanks text)
    match skipBlanks rest with
    | ',' :: rest =>
      let (items, rest) ← readItems? item? fuel rest
      some (item :: items, rest)
    | ']' :: rest => some ([item], rest)
    | _ => none

/-- Reads the members of an object after the first brace or a comma. The first argument bounds
their number. -/
def readMembers? (item? : Reader Json) : Nat → Reader (List (String × Json))
  | 0, _ => none
  | fuel + 1, text =>
    match skipBlanks text with
    | '"' :: rest => do
      let (name, rest) ← readString? rest
      match skipBlanks rest with
      | ':' :: rest =>
        let (item, rest) ← item? (skipBlanks rest)
        match skipBlanks rest with
        | ',' :: rest =>
          let (members, rest) ← readMembers? item? fuel rest
          some ((name, item) :: members, rest)
        | '}' :: rest => some ([(name, item)], rest)
        | _ => none
      | _ => none
    | _ => none

/-- The words that stand for values. -/
def words : List (String × Json) :=
  [("null", .null), ("true", .bool true), ("false", .bool false)]

/-- Reads a word that stands for a value. -/
def readWord? : Reader Json := fun text ↦
  words.findSome? fun word ↦ (Text.after? word.1.toList text).map fun rest ↦ (word.2, rest)

/-- Reads a value without blanks in front, in which arrays and objects nest at most as deep as the
first argument says. -/
def readValue? : Nat → Reader Json
  | nesting, text =>
    match text with
    | '"' :: rest => (readString? rest).map fun read ↦ (.string read.1, read.2)
    | '[' :: rest =>
      match nesting with
      | 0 => none
      | nesting + 1 =>
        match skipBlanks rest with
        | ']' :: rest => some (.array [], rest)
        | _ =>
          (readItems? (readValue? nesting) (rest.length + 1) rest).map fun read ↦
            (.array read.1, read.2)
    | '{' :: rest =>
      match nesting with
      | 0 => none
      | nesting + 1 =>
        match skipBlanks rest with
        | '}' :: rest => some (.object [], rest)
        | _ =>
          (readMembers? (readValue? nesting) (rest.length + 1) rest).map fun read ↦
            (.object read.1, read.2)
    | c :: _ =>
      if c = '-' || c.isDigit then (readNumber? text).map fun read ↦ (.number read.1, read.2)
      else readWord? text
    | [] => none

/-- Reads a whole text as one value. -/
def ofText? (text : String) : Option Json :=
  match readValue? maxNesting (skipBlanks text.toList) with
  | some (value, rest) => if (skipBlanks rest).isEmpty then some value else none
  | none => none

end BuildPlan.Json
