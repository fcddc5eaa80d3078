/-!
# Binary floating point numbers of 64 bits

A number is a sign and a *rank*: how many representable magnitudes lie between zero and it. The
rank is also the bit pattern without the sign bit, so order and bits need no further decoding.
Every operation works on exact integers and rounds once, to the nearest representable number,
a tie to the one whose rank is even.

`compare?` orders two numbers through their `position` on the number line, on which the two
zeros coincide. It answers nothing exactly when one side is not a number
(`compare?_eq_none_iff`).
-/

set_option autoImplicit false
set_option relaxedAutoImplicit false

namespace BuildPlan

/-- The rank of infinity: one more than that of the largest finite number. -/
def infinityRank : Nat := 0x7FF0000000000000

/-- A floating point number. -/
inductive Binary64 where
  /-- The result of an operation that has no value. -/
  | nan
  /-- The number with a sign and a rank; infinity has the greatest rank. -/
  | number (negative : Bool) (rank : Nat) (bounded : rank ≤ infinityRank)
  deriving DecidableEq

namespace Binary64

/-- The number of a sign and a rank, infinite if the rank is out of range. -/
def ofRank (negative : Bool) (rank : Nat) : Binary64 :=
  .number negative (min rank infinityRank) (Nat.min_le_right ..)

/-- Whether a number is neither infinite nor missing. -/
def isFinite : Binary64 → Bool
  | .nan => false
  | .number _ rank _ => rank != infinityRank

/-- Whether a number is positive or negative infinity. -/
def isInfinite : Binary64 → Bool
  | .nan => false
  | .number _ rank _ => rank == infinityRank

/-- The number with the opposite sign. -/
def neg : Binary64 → Binary64
  | .nan => .nan
  | .number negative rank bounded => .number (!negative) rank bounded

/-- The bit that is set in a negative number. -/
def signBit : Nat := 0x8000000000000000

/-- The 64 bits of a number, the sign first. -/
def toBits : Binary64 → Nat
  | .nan => 0x7FF8000000000000
  | .number negative rank _ => if negative then signBit + rank else rank

/-! ### Order -/

/-- The place on the number line, counted in representable magnitudes from zero. -/
def position (negative : Bool) (rank : Nat) : Int :=
  if negative then -rank else rank

/-- The order of two numbers; there is none if one of them is not a number. -/
def compare? : Binary64 → Binary64 → Option Ordering
  | .number leftNegative left _, .number rightNegative right _ =>
    some (compare (position leftNegative left) (position rightNegative right))
  | _, _ => none

/-- Numeric equality: both zeros are equal, and what is not a number equals nothing. -/
def equal (left right : Binary64) : Bool :=
  compare? left right == some .eq

/-- There is no order exactly if one side is not a number. -/
theorem compare?_eq_none_iff {left right : Binary64} :
    compare? left right = none ↔ left = .nan ∨ right = .nan := by
  cases left <;> cases right <;> simp [compare?]

/-! ### Magnitudes -/

/-- The number of magnitudes that share an exponent. -/
def ranksPerExponent : Nat := 0x10000000000000

/-- The integer `m` of a finite magnitude `m * 2 ^ (exponent + offset)`. -/
def significand (rank : Nat) : Nat :=
  if rank < ranksPerExponent then rank else ranksPerExponent + rank % ranksPerExponent

/-- The exponent of a finite magnitude, counted from that of the smallest positive one. -/
def exponent (rank : Nat) : Nat :=
  rank / ranksPerExponent - 1

/-- The binary exponent of the smallest positive magnitude. -/
def smallestExponent : Int := -1074

/-- `m * 2 ^ e` as a quotient of two natural numbers. -/
def scaled (m : Nat) (e : Int) : Nat × Nat :=
  if 0 ≤ e then (m <<< e.toNat, 1) else (m, 1 <<< (-e).toNat)

/-- A finite magnitude as a quotient of two natural numbers. -/
def ratio (rank : Nat) : Nat × Nat :=
  scaled (significand rank) (exponent rank + smallestExponent)

/-- The integer nearest to a quotient, the even one of two equally near. -/
def roundHalfEven (num den : Nat) : Nat :=
  let quotient := num / den
  let twice := 2 * (num % den)
  if twice < den then quotient
  else if den < twice then quotient + 1
  else quotient + quotient % 2

/-- The exponent of the greatest power of two that is not above a positive quotient. -/
def binaryExponent (num den : Nat) : Int :=
  let guess : Int := num.log2 - den.log2
  let power := scaled 1 guess
  if den * power.1 ≤ num * power.2 then guess else guess - 1

/-- The rank of the magnitude nearest to a quotient; it may lie beyond that of infinity. -/
def nearestRank (num den : Nat) : Nat :=
  if num = 0 then 0
  else
    let unit := max (binaryExponent num den - 52) smallestExponent
    let step := scaled 1 unit
    (unit - smallestExponent).toNat * ranksPerExponent +
      roundHalfEven (num * step.2) (den * step.1)

/-- The number nearest to a quotient with a sign. -/
def ofRatio (negative : Bool) (num den : Nat) : Binary64 :=
  ofRank negative (nearestRank num den)

/-- The number nearest to a natural number. -/
def ofNat (n : Nat) : Binary64 :=
  ofRatio false n 1

/-! ### Arithmetic -/

/-- The product of two numbers. -/
def mul : Binary64 → Binary64 → Binary64
  | .number leftNegative left _, .number rightNegative right _ =>
    let negative := leftNegative != rightNegative
    if left = infinityRank ∨ right = infinityRank then
      if left = 0 ∨ right = 0 then .nan else ofRank negative infinityRank
    else
      let a := ratio left
      let b := ratio right
      ofRatio negative (a.1 * b.1) (a.2 * b.2)
  | _, _ => .nan

/-- The quotient of two numbers. -/
def div : Binary64 → Binary64 → Binary64
  | .number leftNegative left _, .number rightNegative right _ =>
    let negative := leftNegative != rightNegative
    if left = infinityRank then
      if right = infinityRank then .nan else ofRank negative infinityRank
    else if right = infinityRank then ofRank negative 0
    else if right = 0 then
      if left = 0 then .nan else ofRank negative infinityRank
    else
      let a := ratio left
      let b := ratio right
      ofRatio negative (a.1 * b.2) (a.2 * b.1)
  | _, _ => .nan

end Binary64

end BuildPlan
