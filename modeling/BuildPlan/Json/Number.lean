import BuildPlan.Json.Basic
import BuildPlan.Binary64.Decimal

/-!
# Reading JSON numbers

An integer that fits in 64 bits, with or without a sign, is kept exactly. Every other number
becomes a floating point number, and so does the negative zero. Its digits are first collected
into an integer of 64 bits; digits that no longer fit are dropped, those of the whole part being
counted as powers of ten. The integer is then rounded, and scaled by one rounded power of ten
after another, at most `10 ^ 308` at a time. So a number of many digits, or of an extreme
exponent, may end up one step beside the nearest one. A number too large for the format is no
number.
-/

set_option autoImplicit false
set_option relaxedAutoImplicit false

namespace BuildPlan.JsonNumber

/-- The parts of a number as it is written. -/
structure Parts where
  /-- Whether a minus sign stands in front. -/
  negative : Bool
  /-- The digits before the point. -/
  whole : List Char
  /-- The digits after the point. -/
  fraction : List Char
  /-- The sign and the digits of the exponent; the sign is true for a minus. -/
  exponent : Option (Bool × List Char)

/-- The largest integer that the digits are collected into. -/
def maxSignificand : Nat := 0xFFFFFFFFFFFFFFFF

/-- The largest magnitude of the smallest integer that is kept exactly. -/
def maxNegated : Nat := 0x8000000000000000

/-- The largest exponent that is read as a number. -/
def maxExponent : Nat := 0x7FFFFFFF

/-- Appends digits to a significand until one does not fit, giving the digits not used. -/
def collect (significand : Nat) : List Char → Nat × List Char
  | [] => (significand, [])
  | digit :: rest =>
    let next := Nat.ofDigitChars 10 [digit] significand
    if maxSignificand < next then (significand, digit :: rest) else collect next rest

/-- The largest power of ten that one step scales by. -/
def maxStep : Nat := 308

/-- The floating point number nearest to a power of ten. -/
def powerOfTen (n : Nat) : Binary64 :=
  ({ negative := false, digits := 1, exponent := n } : Decimal).toBinary64

/-- Scales a number by a power of ten, in steps; nothing if it becomes infinite. The first argument
bounds the number of steps: after two of them every significand has become zero. -/
def scale? : Nat → Binary64 → Int → Option Binary64
  | 0, value, _ => some value
  | steps + 1, value, exponent =>
    if exponent.natAbs ≤ maxStep then
      if 0 ≤ exponent then
        let scaled := value.mul (powerOfTen exponent.natAbs)
        if scaled.isInfinite then none else some scaled
      else some (value.div (powerOfTen exponent.natAbs))
    else if value.equal (.ofNat 0) then some value
    else if 0 ≤ exponent then none
    else scale? steps (value.div (powerOfTen maxStep)) (exponent + maxStep)

/-- The number of steps that `scale?` is given. -/
def maxSteps : Nat := 4

/-- The floating point number that some parts write. -/
def Parts.float? (parts : Parts) : Option Binary64 :=
  let whole := collect 0 parts.whole
  let fraction := collect whole.1 parts.fraction
  let used := parts.fraction.length - fraction.2.length
  let unit : Int := whole.2.length - used
  let signed (value : Binary64) := if parts.negative then value.neg else value
  match parts.exponent with
  | none => (scale? maxSteps (.ofNat fraction.1) unit).map signed
  | some (minus, digits) =>
    let exponent := Nat.ofDigitChars 10 digits 0
    if maxExponent < exponent then
      if fraction.1 ≠ 0 ∧ !minus then none else some (signed (.ofNat 0))
    else
      let shift : Int := if minus then -exponent else exponent
      (scale? maxSteps (.ofNat fraction.1) (unit + shift)).map signed

/-- The number that some parts write; there is none if it is too large. -/
def ofParts? (parts : Parts) : Option JsonNumber :=
  let integer := Nat.ofDigitChars 10 parts.whole 0
  if parts.fraction.isEmpty && parts.exponent.isNone && parts.negative && 0 < integer
      && integer ≤ maxNegated then
    some (.integer (-integer))
  else if parts.fraction.isEmpty && parts.exponent.isNone && !parts.negative
      && integer ≤ maxSignificand then
    some (.integer integer)
  else
    parts.float?.map .float

end BuildPlan.JsonNumber
