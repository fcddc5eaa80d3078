import BuildPlan.Gate.Expr
import BuildPlan.Text.Blank

/-!
# Lexemes of gate expressions

A gate expression is a list of lexemes with blank characters between them: parentheses, operators,
literals and identifiers. `read` reads one lexeme from its first character on and gives the rest of
the text, which is never longer than what follows that character (`length_le_of_read`). `scan`
reads all lexemes of a text, each with the offset of its first byte.

Every lexical error lies at the start of the lexeme that cannot be read.
-/

set_option autoImplicit false
set_option relaxedAutoImplicit false

namespace BuildPlan.Gate

/-- A lexeme. -/
inductive Lexeme where
  | leftParen
  | rightParen
  | not
  | operator (op : Operator)
  | literal (value : Scalar)
  | identifier (name : String)
  deriving DecidableEq

/-- A lexeme as error messages show it. -/
def Lexeme.describe : Lexeme → String
  | .leftParen => "'('"
  | .rightParen => "')'"
  | .not => "'!'"
  | .operator op => quoted op.symbol
  | .literal value => value.describe
  | .identifier name => "identifier " ++ backquoted name

/-- What is wrong with an expression that cannot be read. -/
inductive Fault where
  /-- Half of a two-character operator. -/
  | halfOperator (op : Operator)
  /-- A string without its closing quote. -/
  | unterminatedString
  /-- A number with more than one point. -/
  | invalidNumber (text : String)
  /-- A character that starts no lexeme. -/
  | unexpectedCharacter (c : Char)
  /-- The text ends where an expression is expected. -/
  | expectedExpression
  /-- A lexeme that starts no operand. -/
  | expectedOperand (found : Lexeme)
  /-- A parenthesis that is not closed. -/
  | expectedRightParen (found : Option Lexeme)
  /-- A lexeme after the end of the expression. -/
  | unexpected (found : Lexeme)
  /-- Too many levels of operators and parentheses. -/
  | tooDeep
  /-- The reader had no budget left. -/
  | outOfBudget
  deriving DecidableEq

/-- The levels that an expression may have: open negations and parentheses around a lexeme, and the
height of the tree. -/
def maxDepth : Nat := 256

/-- The words for a fault. -/
def Fault.message : Fault → String
  | .halfOperator op => "expected " ++ quoted op.symbol
  | .unterminatedString => "unterminated string literal"
  | .invalidNumber text => "invalid number " ++ quoted text
  | .unexpectedCharacter c => "unexpected character " ++ quoted (.singleton c)
  | .expectedExpression => "expected an expression"
  | .expectedOperand found => "expected an operand, found " ++ found.describe
  | .expectedRightParen (some found) => "expected ')', found " ++ found.describe
  | .expectedRightParen none => "expected ')'"
  | .unexpected found => "unexpected " ++ found.describe
  | .tooDeep => "expression nested deeper than " ++ toString maxDepth ++ " levels"
  | .outOfBudget => "expression too long"

/-- A fault and the offset of the byte at which it shows. -/
structure Malformed where
  offset : Nat
  fault : Fault
  deriving DecidableEq

/-- A lexeme and the offset of its first byte. -/
structure Spanned where
  lexeme : Lexeme
  offset : Nat
  deriving DecidableEq

namespace Lexeme

/-! ### Reading one lexeme -/

/-- Whether a character starts an identifier. -/
def isIdentifierStart (c : Char) : Bool :=
  c.isAlpha || c = '_'

/-- Whether a character continues an identifier. -/
def isIdentifierRest (c : Char) : Bool :=
  c.isAlphanum || c = '_' || c = '.'

/-- Whether a character continues a number. -/
def isNumberRest (c : Char) : Bool :=
  c.isDigit || c = '.'

/-- The character that a character after a backslash stands for. -/
def unescape (c : Char) : Char :=
  if c = 'n' then '\n' else if c = 't' then '\t' else c

/-- Reads a string up to its closing quote. -/
def readString (quote : Char) : List Char → Option (List Char × List Char)
  | [] => none
  | c :: rest =>
    if c = quote then some ([], rest)
    else if c = '\\' then
      match rest with
      | [] => none
      | escaped :: rest =>
        (readString quote rest).map fun parts ↦ (unescape escaped :: parts.1, parts.2)
    else (readString quote rest).map fun parts ↦ (c :: parts.1, parts.2)

/-- The lexeme of a word. -/
def ofWord (word : String) : Lexeme :=
  if word = "true" then .literal (.bool true)
  else if word = "false" then .literal (.bool false)
  else if word = "and" then .operator .and
  else if word = "or" then .operator .or
  else if word = "not" then .not
  else .identifier word

/-- The lexeme of a number. -/
def ofNumber (text : String) : Except Fault Lexeme :=
  match Binary64.ofText? text with
  | some value => .ok (.literal (.number value text))
  | none => .error (.invalidNumber text)

/-- The rest of a text after a character, if it starts with that character. -/
def after? (c : Char) : List Char → Option (List Char)
  | [] => none
  | first :: rest => if first = c then some rest else none

/-- Reads an operator that is one character written twice, after its first character. -/
def readTwice (c : Char) (op : Operator) (rest : List Char) :
    Except Fault (Lexeme × List Char) :=
  match after? c rest with
  | some rest => .ok (.operator op, rest)
  | none => .error (.halfOperator op)

/-- Reads a lexeme that is another one if an equals sign follows. -/
def readWithEquals (plain extended : Lexeme) (rest : List Char) : Lexeme × List Char :=
  match after? '=' rest with
  | some rest => (extended, rest)
  | none => (plain, rest)

/-- Whether a text starts with a digit. -/
def startsWithDigit : List Char → Bool
  | [] => false
  | c :: _ => c.isDigit

/-- Reads a lexeme from its first character and the text after it. -/
def read (c : Char) (rest : List Char) : Except Fault (Lexeme × List Char) :=
  if c = '(' then .ok (.leftParen, rest)
  else if c = ')' then .ok (.rightParen, rest)
  else if c = '!' then .ok (readWithEquals .not (.operator .ne) rest)
  else if c = '=' then readTwice '=' .eq rest
  else if c = '&' then readTwice '&' .and rest
  else if c = '|' then readTwice '|' .or rest
  else if c = '<' then .ok (readWithEquals (.operator .lt) (.operator .le) rest)
  else if c = '>' then .ok (readWithEquals (.operator .gt) (.operator .ge) rest)
  else if c = '\x27' ∨ c = '"' then
    match readString c rest with
    | some (text, rest) => .ok (.literal (.string (.ofList text)), rest)
    | none => .error .unterminatedString
  else if c.isDigit || (c = '-' && startsWithDigit rest) then
    (ofNumber (.ofList (c :: rest.takeWhile isNumberRest))).map fun lexeme ↦
      (lexeme, rest.dropWhile isNumberRest)
  else if isIdentifierStart c then
    .ok (ofWord (.ofList (c :: rest.takeWhile isIdentifierRest)),
      rest.dropWhile isIdentifierRest)
  else .error (.unexpectedCharacter c)

theorem length_lt_of_readString {quote : Char} {text value rest : List Char}
    (h : readString quote text = some (value, rest)) : rest.length < text.length := by
  fun_induction readString quote text generalizing value with
  | case1 => contradiction
  | case2 => simp_all
  | case3 => contradiction
  | case4 c escaped text ih =>
    obtain ⟨parts, hparts, hpair⟩ := Option.map_eq_some_iff.1 h
    obtain ⟨-, rfl⟩ := Prod.mk.inj hpair
    have := ih hparts
    simp only [List.length_cons]
    omega
  | case5 c text _ _ ih =>
    obtain ⟨parts, hparts, hpair⟩ := Option.map_eq_some_iff.1 h
    obtain ⟨-, rfl⟩ := Prod.mk.inj hpair
    have := ih hparts
    simp only [List.length_cons]
    omega

theorem length_lt_of_after? {c : Char} {text rest : List Char} (h : after? c text = some rest) :
    rest.length < text.length := by
  cases text with
  | nil => contradiction
  | cons first text =>
    simp only [after?] at h
    split at h <;> simp_all

theorem length_le_of_readTwice {c : Char} {op : Operator} {text rest : List Char}
    {lexeme : Lexeme} (h : readTwice c op text = .ok (lexeme, rest)) :
    rest.length ≤ text.length := by
  simp only [readTwice] at h
  split at h
  next hafter =>
    obtain ⟨-, rfl⟩ := Prod.mk.inj (Except.ok.inj h)
    exact Nat.le_of_lt (length_lt_of_after? hafter)
  next => contradiction

theorem length_le_of_readWithEquals (plain extended : Lexeme) (text : List Char) :
    (readWithEquals plain extended text).2.length ≤ text.length := by
  simp only [readWithEquals]
  split
  next hafter => exact Nat.le_of_lt (length_lt_of_after? hafter)
  next => exact Nat.le_refl _

/-- What is left after a lexeme is not longer than what follows its first character. -/
theorem length_le_of_read {c : Char} {text rest : List Char} {lexeme : Lexeme}
    (h : read c text = .ok (lexeme, rest)) : rest.length ≤ text.length := by
  have keep {lexeme' : Lexeme} {after : List Char}
      (h : (.ok (lexeme', after) : Except Fault (Lexeme × List Char)) = .ok (lexeme, rest))
      (hle : after.length ≤ text.length) : rest.length ≤ text.length := by
    obtain ⟨-, rfl⟩ := Prod.mk.inj (Except.ok.inj h)
    exact hle
  rw [read] at h
  by_cases hc : c = '('
  · rw [if_pos hc] at h
    exact keep h (Nat.le_refl _)
  rw [if_neg hc] at h
  clear hc
  by_cases hc : c = ')'
  · rw [if_pos hc] at h
    exact keep h (Nat.le_refl _)
  rw [if_neg hc] at h
  clear hc
  by_cases hc : c = '!'
  · rw [if_pos hc] at h
    exact keep h (length_le_of_readWithEquals ..)
  rw [if_neg hc] at h
  clear hc
  by_cases hc : c = '='
  · rw [if_pos hc] at h
    exact length_le_of_readTwice h
  rw [if_neg hc] at h
  clear hc
  by_cases hc : c = '&'
  · rw [if_pos hc] at h
    exact length_le_of_readTwice h
  rw [if_neg hc] at h
  clear hc
  by_cases hc : c = '|'
  · rw [if_pos hc] at h
    exact length_le_of_readTwice h
  rw [if_neg hc] at h
  clear hc
  by_cases hc : c = '<'
  · rw [if_pos hc] at h
    exact keep h (length_le_of_readWithEquals ..)
  rw [if_neg hc] at h
  clear hc
  by_cases hc : c = '>'
  · rw [if_pos hc] at h
    exact keep h (length_le_of_readWithEquals ..)
  rw [if_neg hc] at h
  clear hc
  by_cases hc : c = '\x27' ∨ c = '"'
  · rw [if_pos hc] at h
    cases hstring : readString c text with
    | none => rw [hstring] at h; contradiction
    | some parts =>
      rw [hstring] at h
      exact keep h (Nat.le_of_lt (length_lt_of_readString hstring))
  rw [if_neg hc] at h
  clear hc
  by_cases hc : c.isDigit || (c = '-' && startsWithDigit text)
  · rw [if_pos hc] at h
    cases hnumber : ofNumber (.ofList (c :: text.takeWhile isNumberRest)) with
    | error fault => rw [hnumber] at h; contradiction
    | ok lexeme' =>
      rw [hnumber] at h
      exact keep h (List.dropWhile_sublist _).length_le
  rw [if_neg hc] at h
  clear hc
  by_cases hc : isIdentifierStart c
  · rw [if_pos hc] at h
    exact keep h (List.dropWhile_sublist _).length_le
  rw [if_neg hc] at h
  contradiction

end Lexeme

/-! ### Reading all lexemes -/

/-- The number of bytes of a text. -/
def byteLength : List Char → Nat
  | [] => 0
  | c :: rest => c.utf8Size + byteLength rest

theorem byteLength_append (first second : List Char) :
    byteLength (first ++ second) = byteLength first + byteLength second := by
  induction first with
  | nil => exact (Nat.zero_add _).symm
  | cons c first ih => rw [List.cons_append, byteLength, byteLength, ih, Nat.add_assoc]

/-- Every character has a byte. -/
theorem byteLength_pos {text : List Char} (h : text ≠ []) : 0 < byteLength text := by
  obtain ⟨c, rest, rfl⟩ := List.exists_cons_of_ne_nil h
  exact Nat.add_pos_left c.utf8Size_pos _

/-- Reads all lexemes of a text that starts at an offset. -/
def scan (offset : Nat) (text : List Char) : Except Malformed (List Spanned) :=
  match text with
  | [] => .ok []
  | c :: rest =>
    if Text.isBlank c then scan (offset + c.utf8Size) rest
    else
      match _ : Lexeme.read c rest with
      | .error fault => .error { offset, fault }
      | .ok (lexeme, after) =>
        let width := byteLength (c :: rest) - byteLength after
        (scan (offset + width) after).map fun others ↦ { lexeme, offset } :: others
termination_by text.length
decreasing_by
  · simp
  · exact Nat.lt_succ_of_le (Lexeme.length_le_of_read ‹_›)

/-- The lexemes of an expression. -/
def lexemes (expression : String) : Except Malformed (List Spanned) :=
  scan 0 expression.toList

end BuildPlan.Gate
