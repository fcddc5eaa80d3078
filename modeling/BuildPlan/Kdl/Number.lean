import BuildPlan.Binary64.Decimal
import BuildPlan.Kdl.Basic
import BuildPlan.Text.Digit

/-!
# Numbers of documents

A number is an integer in base ten, or in base two, eight or sixteen behind a base mark, or a
decimal number with a fraction or an exponent. Base marks and the mark of an exponent are letters
of either case. Underscores may stand anywhere among digits but not
in front of them. The magnitude of every run of digits is limited to what a signed integer of 128
bits can hold.
-/

set_option autoImplicit false
set_option relaxedAutoImplicit false

namespace BuildPlan.Kdl

/-- The largest magnitude of an integer. -/
def maxMagnitude : Nat := 0x7FFFFFFFFFFFFFFFFFFFFFFFFFFFFFFF

/-- Whether a character may stand among the digits of a base. -/
def isDigitOrMark (base : Nat) (c : Char) : Bool :=
  Text.isDigitOf base c || c = '_'

/-- The digits of a run of digits and underscores, if it starts with a digit and is not too
large. -/
def digits? (base : Nat) (text : List Char) : Option (List Nat) :=
  match text with
  | [] => none
  | first :: _ =>
    if !Text.isDigitOf base first || !text.all (isDigitOrMark base) then none
    else
      let digits := text.filterMap (Text.digitValue? base)
      if Text.ofDigits base digits ≤ maxMagnitude then some digits else none

/-- An integer with a sign. -/
def signedInteger (negative : Bool) (magnitude : Nat) : Value :=
  .integer (if negative then -magnitude else magnitude)

/-- The exponent of a decimal number. -/
def exponent? (text : List Char) : Option Int :=
  let signed := Decimal.cutSign text
  (digits? 10 signed.2).map fun digits ↦
    if signed.1 then -(Text.ofDigits 10 digits : Int) else Text.ofDigits 10 digits

/-- Reads a decimal number after its sign. -/
def decimal? (negative : Bool) (text : List Char) : Option Value := do
  let whole ← digits? 10 (text.takeWhile (isDigitOrMark 10))
  match text.dropWhile (isDigitOrMark 10) with
  | [] => some (signedInteger negative (Text.ofDigits 10 whole))
  | '.' :: rest =>
    let fraction ← digits? 10 (rest.takeWhile (isDigitOrMark 10))
    let exponent ← match rest.dropWhile (isDigitOrMark 10) with
      | [] => some 0
      | mark :: tail => if mark = 'e' ∨ mark = 'E' then exponent? tail else none
    some (.float (Decimal.toBinary64 {
      negative
      digits := Text.ofDigits 10 (whole ++ fraction)
      exponent := exponent - fraction.length }))
  | mark :: tail =>
    if mark = 'e' ∨ mark = 'E' then
      let exponent ← exponent? tail
      some (.float (Decimal.toBinary64 { negative, digits := Text.ofDigits 10 whole, exponent }))
    else none

/-- The base that a letter behind a zero stands for. -/
def baseOfMark? : Char → Option Nat
  | 'x' | 'X' => some 16
  | 'o' | 'O' => some 8
  | 'b' | 'B' => some 2
  | _ => none

/-- The base and the digits behind the base mark at the front of a text. -/
def cutBaseMark? : List Char → Option (Nat × List Char)
  | '0' :: mark :: rest => (baseOfMark? mark).map fun base ↦ (base, rest)
  | _ => none

/-- Reads a whole text as a number. -/
def number? (text : List Char) : Option Value :=
  let signed := Decimal.cutSign text
  match cutBaseMark? signed.2 with
  | some (base, rest) =>
    (digits? base rest).map fun digits ↦ signedInteger signed.1 (Text.ofDigits base digits)
  | none => decimal? signed.1 signed.2

end BuildPlan.Kdl
