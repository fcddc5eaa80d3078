import BuildPlan.Binary64.Basic

/-!
# The shortest decimal text of a floating point number

Many decimal numbers round to one floating point number: those between the midpoints to its two
neighbours, the midpoints included if its own significand is even. `shortest` picks among those
with the fewest digits the one nearest to the exact value. For each count of digits it tests only
the two neighbours of the value on the grid of such numbers: if any point of the grid lies in the
interval, one of these two does.

How the digits are laid out (where the point stands, when an exponent is used) is up to the format
that is written, and is described by a `Layout`.
-/

set_option autoImplicit false
set_option relaxedAutoImplicit false

namespace BuildPlan

namespace Binary64

/-- Which of two equally near candidates is chosen. -/
inductive Tie where
  /-- The one with the even last digit. -/
  | toEven
  /-- The one farther from zero. -/
  | away
  deriving DecidableEq

/-- The exponent of the greatest power of ten that is not above a positive quotient. -/
def decimalExponent (num den : Nat) : Int :=
  if den ≤ num then (Nat.toDigits 10 (num / den)).length - 1
  else -((Nat.toDigits 10 ((den - 1) / num)).length : Int)

/-- The numbers that round to one magnitude, all over one denominator. -/
structure Interval where
  /-- The lower end. -/
  low : Nat
  /-- The exact value. -/
  value : Nat
  /-- The upper end. -/
  high : Nat
  /-- The common denominator. -/
  den : Nat
  /-- Whether the ends round to the magnitude too. -/
  closed : Bool

/-- The numbers that round to a positive finite magnitude. Below a power of two the neighbour is
half as far away as above it. -/
def interval (rank : Nat) : Interval :=
  let m := significand rank
  let unit := scaled 1 (exponent rank + smallestExponent - 2)
  let below := if m = ranksPerExponent ∧ 2 * ranksPerExponent ≤ rank then 1 else 2
  { low := (4 * m - below) * unit.1
    value := 4 * m * unit.1
    high := (4 * m + 2) * unit.1
    den := unit.2
    closed := m % 2 == 0 }

/-- Whether `digits * step.1 / step.2` lies in an interval. -/
def Interval.contains (range : Interval) (step : Nat × Nat) (digits : Nat) : Bool :=
  let point := digits * step.1 * range.den
  let low := range.low * step.2
  let high := range.high * step.2
  if range.closed then decide (low ≤ point ∧ point ≤ high)
  else decide (low < point ∧ point < high)

/-- `10 ^ e` as a quotient of two natural numbers. -/
def powerOfTen (e : Int) : Nat × Nat :=
  if 0 ≤ e then (Nat.pow 10 e.toNat, 1) else (1, Nat.pow 10 (-e).toNat)

/-- The multiple of `10 ^ unit` in an interval that is nearest to its value, if any. -/
def nearestOnGrid? (tie : Tie) (range : Interval) (unit : Int) : Option Nat :=
  let step := powerOfTen unit
  let below := range.value * step.2 / (range.den * step.1)
  let above := below + 1
  match range.contains step below, range.contains step above with
  | false, false => none
  | true, false => some below
  | false, true => some above
  | true, true =>
    let twiceValue := 2 * range.value * step.2
    let middle := (below + above) * step.1 * range.den
    if twiceValue < middle then some below
    else if middle < twiceValue then some above
    else match tie with
      | .toEven => some (if below % 2 = 0 then below else above)
      | .away => some above

/-- Removes the zeros at the end of a number and counts them into its power of ten. -/
def stripZeros : Nat → Nat → Int → Nat × Int
  | 0, digits, unit => (digits, unit)
  | fuel + 1, digits, unit =>
    if digits % 10 = 0 ∧ digits ≠ 0 then stripZeros fuel (digits / 10) (unit + 1)
    else (digits, unit)

/-- No number needs more digits than this. -/
def maxDigits : Nat := 17

/-- The digits and the power of ten of the shortest decimal number that rounds to a positive finite
magnitude. -/
def shortest (tie : Tie) (rank : Nat) : Nat × Int :=
  let range := interval rank
  let top := decimalExponent range.value range.den
  let found := (List.range maxDigits).findSome? fun (more : Nat) ↦
    let unit := top - more
    (nearestOnGrid? tie range unit).map fun digits ↦ (digits, unit)
  match found with
  | some (digits, unit) => stripZeros maxDigits digits unit
  | none => (0, 0)

/-! ### Layout -/

/-- How a format writes numbers. -/
structure Layout where
  /-- The choice between two equally near decimal numbers. -/
  tie : Tie
  /-- The powers of ten of the leading digit for which no exponent is written. -/
  positional : Int → Bool
  /-- Whether an integer gets `.0`. -/
  fractionAlways : Bool
  /-- The names of infinity and of the missing number. -/
  infinityName : String
  nanName : String

/-- Digits with a point among them. -/
def positionalText (fractionAlways : Bool) (digits : List Char) (unit : Int) : List Char :=
  if 0 ≤ unit then
    digits ++ List.replicate unit.toNat '0' ++ if fractionAlways then ['.', '0'] else []
  else
    let places := (-unit).toNat
    if places < digits.length then
      digits.take (digits.length - places) ++ '.' :: digits.drop (digits.length - places)
    else
      '0' :: '.' :: (List.replicate (places - digits.length) '0' ++ digits)

/-- One digit, the others after a point, and a signed exponent. -/
def scientificText (digits : List Char) (leading : Int) : List Char :=
  let mantissa := match digits with
    | first :: second :: rest => first :: '.' :: second :: rest
    | short => short
  let sign := if leading < 0 then '-' else '+'
  mantissa ++ 'e' :: sign :: Nat.toDigits 10 leading.natAbs

/-- The text of a magnitude. -/
def Layout.magnitude (layout : Layout) (rank : Nat) : List Char :=
  if rank = infinityRank then layout.infinityName.toList
  else if rank = 0 then positionalText layout.fractionAlways ['0'] 0
  else
    let decimal := shortest layout.tie rank
    let digits := Nat.toDigits 10 decimal.1
    let leading := decimal.2 + digits.length - 1
    if layout.positional leading then positionalText layout.fractionAlways digits decimal.2
    else scientificText digits leading

/-- The text of a number. -/
def Layout.text (layout : Layout) : Binary64 → String
  | .nan => layout.nanName
  | .number negative rank _ =>
    .ofList (if negative then '-' :: layout.magnitude rank else layout.magnitude rank)

/-- The layout without exponents, in which an integer has no point. -/
def plainLayout : Layout where
  tie := .away
  positional := fun _ ↦ true
  fractionAlways := false
  infinityName := "inf"
  nanName := "NaN"

end Binary64

end BuildPlan
