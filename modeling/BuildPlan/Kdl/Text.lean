import BuildPlan.Kdl.Character
import BuildPlan.Text.Cut
import BuildPlan.Text.Digit

/-!
# Texts of documents

A text is written as a name without quotes, between quotes with escapes, or between quotes with
number signs around them and no escapes. Between three quotes a text may have several lines: it
starts on the line after the quotes, and the blanks in front of the closing quotes are removed from
every line. A line of blanks alone counts as empty. A backslash in front of blanks or line ends
removes them all, before lines are looked at. A text without escapes is not a quote alone, so that
three quotes are never mistaken for one.

What is written behind a text must set it apart: a blank, a line end, a comment, or a mark of the
structure around it.

Readers take the text from where they start and give what they read with the rest of the text. A
fuel argument bounds the number of characters.
-/

set_option autoImplicit false
set_option relaxedAutoImplicit false

namespace BuildPlan.Kdl

/-- A character of a text, and whether it was written as itself. -/
structure Written where
  char : Char
  plain : Bool

/-! ### Names without quotes -/

/-- The names that would be mistaken for other values. With a sign in front they are names like any
other. -/
def reservedNames : List String := ["true", "false", "null", "inf", "nan"]

/-- Whether a text starts like a number: with a digit, after a sign and a point at most. -/
def startsLikeNumber (text : List Char) : Bool :=
  let unsigned := match text with
    | '+' :: rest => rest
    | '-' :: rest => rest
    | _ => text
  let bare := match unsigned with
    | '.' :: rest => rest
    | _ => unsigned
  (bare.head?.map Char.isDigit).getD false

/-- Reads a name without quotes. -/
def readName? (text : List Char) : Option (List Char × List Char) :=
  let name := text.takeWhile isNameCharacter
  if name.isEmpty || startsLikeNumber name || reservedNames.contains (.ofList name) then none
  else some (name, text.dropWhile isNameCharacter)

/-! ### Escapes -/

/-- The character that a letter after a backslash stands for. -/
def escaped? : Char → Option Char
  | '"' => some '"'
  | '\\' => some '\\'
  | 'b' => some '\x08'
  | 'f' => some '\x0c'
  | 'n' => some '\n'
  | 'r' => some '\r'
  | 's' => some ' '
  | 't' => some '\t'
  | _ => none

/-- Reads a code point in braces, of one to six hexadecimal digits. -/
def readCodePoint? : List Char → Option (Char × List Char)
  | '\x7b' :: rest =>
    let digits := rest.takeWhile (Text.isDigitOf 16)
    let code := Text.ofDigitChars 16 digits
    match rest.dropWhile (Text.isDigitOf 16) with
    | '\x7d' :: rest =>
      if digits.isEmpty || 6 < digits.length || !decide code.isValidChar then none
      else some (.ofNat code, rest)
    | _ => none
  | _ => none

/-- Reads what follows a backslash: a character, or blanks and line ends that stand for nothing. -/
def readEscape? : List Char → Option (Option Char × List Char)
  | [] => none
  | 'u' :: rest => (readCodePoint? rest).map fun read ↦ (some read.1, read.2)
  | c :: rest =>
    if isSpace c || isNewline c then
      some (none, rest.dropWhile fun c ↦ isSpace c || isNewline c)
    else (escaped? c).map fun c ↦ (some c, rest)

/-! ### Texts on one line -/

/-- Reads the rest of a text between quotes. -/
def readQuoted? : Nat → List Char → Option (List Char × List Char)
  | 0, _ => none
  | _ + 1, [] => none
  | _ + 1, '"' :: rest => some ([], rest)
  | fuel + 1, '\\' :: rest => do
    let (c, rest) ← readEscape? rest
    let (tail, rest) ← readQuoted? fuel rest
    some (c.toList ++ tail, rest)
  | fuel + 1, c :: rest =>
    if isNewline c || isForbidden c then none
    else do
      let (tail, rest) ← readQuoted? fuel rest
      some (c :: tail, rest)

/-- Reads the rest of a text without escapes, up to a closing sequence. -/
def readRaw? (closing : List Char) : Nat → List Char → Option (List Char × List Char)
  | 0, _ => none
  | fuel + 1, text =>
    match Text.after? closing text with
    | some rest => some ([], rest)
    | none =>
      match text with
      | [] => none
      | c :: rest =>
        if isNewline c || isForbidden c then none
        else do
          let (tail, rest) ← readRaw? closing fuel rest
          some (c :: tail, rest)

/-! ### Texts of several lines -/

/-- Puts a character in front of the first of some lines. -/
def pushWritten (written : Written) : List (List Written) → List (List Written)
  | [] => [[written]]
  | line :: lines => (written :: line) :: lines

/-- Reads the lines of a text up to a closing sequence. -/
def readLines? (escapes : Bool) (closing : List Char) :
    Nat → List Char → Option (List (List Written) × List Char)
  | 0, _ => none
  | fuel + 1, text =>
    match Text.after? closing text with
    | some rest => some ([[]], rest)
    | none =>
      match afterNewline? text with
      | some rest => do
        let (lines, rest) ← readLines? escapes closing fuel rest
        some ([] :: lines, rest)
      | none =>
        match text with
        | [] => none
        | c :: rest =>
          if escapes && c = '\\' then do
            let (escape, rest) ← readEscape? rest
            let (lines, rest) ← readLines? escapes closing fuel rest
            match escape with
            | some char => some (pushWritten { char, plain := false } lines, rest)
            | none => some (lines, rest)
          else if isForbidden c then none
          else do
            let (lines, rest) ← readLines? escapes closing fuel rest
            some (pushWritten { char := c, plain := true } lines, rest)

/-- Whether a line consists of blanks that were written as themselves. -/
def isBlankLine (line : List Written) : Bool :=
  line.all fun written ↦ written.plain && isSpace written.char

/-- Removes the blanks in front of a line; the line must start with them or be blank. -/
def dedent? (blanks : List Char) (line : List Written) : Option (List Char) :=
  if isBlankLine line then some []
  else if (line.take blanks.length).all (·.plain) then
    Text.after? blanks (line.map (·.char))
  else none

/-- The text of some lines, the last of which holds the blanks that are removed from the others. -/
def joinLines? (lines : List (List Written)) : Option (List Char) :=
  match lines.reverse with
  | [] => none
  | last :: others =>
    if isBlankLine last then do
      let dedented ← others.reverse.mapM (dedent? (last.map (·.char)))
      some ((dedented.intersperse ['\n']).flatten)
    else none

/-! ### What ends a value -/

/-- The marks that may stand directly behind a value. -/
def closingMarks : List Char := ['=', ')', '\x7b', '\x7d', ';', '\\']

/-- Whether a value may end in front of a text. A slash must start a comment. -/
def endsValue : List Char → Bool
  | [] => true
  | '/' :: mark :: _ => mark = '/' || mark = '*'
  | c :: _ => closingMarks.contains c || isSpace c || isNewline c

/-- What was read, if a value may end there. -/
def ended? {α : Type} (read : α × List Char) : Option (α × List Char) :=
  if endsValue read.2 then some read else none

/-! ### All texts -/

/-- Three quotes. -/
def tripleQuote : List Char := ['"', '"', '"']

/-- The text after three quotes and a line end. -/
def afterTripleQuote? (text : List Char) : Option (List Char) :=
  (Text.after? tripleQuote text).bind afterNewline?

/-- Reads a text between quotes with some number signs around them. -/
def readBetweenQuotes? (signs : List Char) (text : List Char) : Option (List Char × List Char) :=
  let escapes := signs.isEmpty
  match afterTripleQuote? text with
  | some rest => do
    let (lines, rest) ← readLines? escapes (tripleQuote ++ signs) (rest.length + 1) rest
    some (← joinLines? lines, rest)
  | none =>
    match text with
    | '"' :: rest =>
      if escapes then readQuoted? (rest.length + 1) rest
      else readRaw? ('"' :: signs) (rest.length + 1) rest
    | _ => none

/-- Reads a text between quotes with number signs around them; it is not a quote alone. -/
def readSigned? (text : List Char) : Option (List Char × List Char) := do
  let read ← readBetweenQuotes? (text.takeWhile (· = '#')) (text.dropWhile (· = '#'))
  if read.1 = ['"'] then none else some read

/-- Reads a text in any of the ways to write one. -/
def readText? (text : List Char) : Option (String × List Char) := do
  let (chars, rest) ← match text with
    | '"' :: _ => readBetweenQuotes? [] text
    | '#' :: _ => readSigned? text
    | _ => readName? text
  ended? (.ofList chars, rest)

end BuildPlan.Kdl
