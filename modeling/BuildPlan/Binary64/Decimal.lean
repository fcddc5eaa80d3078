import BuildPlan.Binary64.Basic

/-!
# Reading decimal numbers

A decimal number is written as a sign, digits with at most one point among them, and an exponent
of ten after an `e` in either case. At least one digit stands before the exponent; everything
else is optional. `Decimal.ofChars?` accepts exactly these texts, and `Decimal.toBinary64` rounds
the exact value once. `Binary64.ofText?` also knows the names of infinity and of the missing
number.
-/

set_option autoImplicit false
set_option relaxedAutoImplicit false

namespace BuildPlan

/-- The number `digits * 10 ^ exponent` with a sign. -/
structure Decimal where
  /-- Whether a minus sign stands in front. -/
  negative : Bool
  /-- All digits, as one integer. -/
  digits : Nat
  /-- The power of ten that the digits are multiplied with. -/
  exponent : Int
  deriving DecidableEq

namespace Decimal

/-- An optional sign and the rest of the text. -/
def cutSign : List Char → Bool × List Char
  | '-' :: rest => (true, rest)
  | '+' :: rest => (false, rest)
  | text => (false, text)

/-- The digits at the front of a text and the rest of it. -/
def cutDigits (text : List Char) : List Char × List Char :=
  (text.takeWhile Char.isDigit, text.dropWhile Char.isDigit)

/-- The value of an exponent part; nothing at all stands for zero. -/
def exponentPart? : List Char → Option Int
  | [] => some 0
  | c :: rest =>
    if c = 'e' ∨ c = 'E' then
      let signed := cutSign rest
      let parts := cutDigits signed.2
      if parts.1.isEmpty || !parts.2.isEmpty then none
      else
        let value : Int := Nat.ofDigitChars 10 parts.1 0
        some (if signed.1 then -value else value)
    else none

/-- The digits after a point at the front of a text, if one is there, and the rest. -/
def cutFraction : List Char → List Char × List Char
  | '.' :: rest => cutDigits rest
  | text => ([], text)

/-- Reads a whole text as a decimal number. -/
def ofChars? (text : List Char) : Option Decimal :=
  let signed := cutSign text
  let whole := cutDigits signed.2
  let fraction := cutFraction whole.2
  if whole.1.isEmpty && fraction.1.isEmpty then none
  else
    (exponentPart? fraction.2).map fun exponent ↦
      { negative := signed.1
        digits := Nat.ofDigitChars 10 (whole.1 ++ fraction.1) 0
        exponent := exponent - fraction.1.length }

/-- A bound on the powers of ten between which a number is neither zero nor infinite. -/
def decimalRange : Int := 400

/-- The floating point number nearest to a decimal number.

A number of `n` digits lies below `10 ^ (n + exponent)` and not below a tenth of that, unless it
is zero. Beyond `10 ^ 400` all numbers are infinite and below `10 ^ (-400)` all are zero, so the
exact quotient is only formed where it is of moderate size. -/
def toBinary64 (decimal : Decimal) : Binary64 :=
  let order := decimal.exponent + (Nat.toDigits 10 decimal.digits).length
  if decimal.digits = 0 ∨ order < -decimalRange then .ofRank decimal.negative 0
  else if decimalRange < order then .ofRank decimal.negative infinityRank
  else if 0 ≤ decimal.exponent then
    .ofRatio decimal.negative (decimal.digits * Nat.pow 10 decimal.exponent.toNat) 1
  else
    .ofRatio decimal.negative decimal.digits (Nat.pow 10 (-decimal.exponent).toNat)

end Decimal

namespace Binary64

/-- The names that stand for infinity, in lower case. -/
def infinityNames : List String := ["inf", "infinity"]

/-- The name that stands for the missing number, in lower case. -/
def nanName : String := "nan"

/-- Reads a whole text as a number: a decimal number, or a name in any case after a sign. -/
def ofText? (text : String) : Option Binary64 :=
  match Decimal.ofChars? text.toList with
  | some decimal => some decimal.toBinary64
  | none =>
    let signed := Decimal.cutSign text.toList
    let name := String.ofList (signed.2.map Char.toLower)
    if name ∈ infinityNames then some (ofRank signed.1 infinityRank)
    else if name = nanName then some .nan
    else none

end Binary64

end BuildPlan
